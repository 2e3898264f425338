import Jancy.Ct.TemplateArgs

/-! What `Template::deduceArgs` deduces. The declared types demand types for the template parameters,
and each parameter gets the join of what is demanded for it. -/
namespace Jancy.Ct.TemplateArgs

open Types (PrimitiveKind)

mutual

/-- The types that a declared type demands for the template parameters, or `none` where the type of
the argument has another structure. -/
def demands : Ty → Ty → Option (List (ℕ × Ty))
  | .templateArg index, type => some [(index,type)]
  | .templateTypeName _, _ => none
  | .templatePtr baseType _, type =>
      match templatePtrTarget type with
      | none => none
      | some targetType => demands baseType targetType
  | .templateIntMod baseType, type =>
      match intModReferenceType type with
      | none => none
      | some referenceType => demands baseType referenceType
  | .ptr kind _ _ targetType, type =>
      match ptrTarget kind type with
      | none => none
      | some referenceTarget => demands targetType referenceTarget
  | .function _ returnType argArray, type =>
      match type with
      | .function _ returnType' argArray' =>
          if argArray.length = argArray'.length then
            match demands returnType returnType',demandsAll argArray argArray' with
            | some ds, some ds' => some (ds ++ ds')
            | _, _ => none
          else none
      | _ => none
  | .property _ getterReturnType, type =>
      match type with
      | .property _ getterReturnType' => demands getterReturnType getterReturnType'
      | _ => none
  | .instance kind template argArray, type =>
      match instanceArgs kind template type with
      | none => none
      | some argArray' => demandsAll argArray argArray'
  | .primitive _, _ | .array _ _, _ | .enum _ _, _ | .named _ _, _ => some []

def demandsAll : Tys → Tys → Option (List (ℕ × Ty))
  | .cons type rest, .cons type' rest' =>
      match demands type type',demandsAll rest rest' with
      | some ds, some ds' => some (ds ++ ds')
      | _, _ => none
  | _, _ => some []

end

/-- The slots after all demands, if each of them has a join. -/
def absorb (slots : Slots) : List (ℕ × Ty) → Option Slots
  | [] => some slots
  | (index,type) :: ds =>
      match slots[index]? with
      | none => none
      | some slot =>
          match join slot type with
          | none => none
          | some actualType => absorb (slots.set index (some actualType)) ds

theorem absorb_append (ds ds' : List (ℕ × Ty)) :
    ∀ slots, absorb slots (ds ++ ds') = (absorb slots ds).bind fun slots => absorb slots ds' := by
  induction ds with
  | nil =>
    intro slots
    rfl
  | cons d ds ih =>
    intro slots
    obtain ⟨index,type⟩ := d
    simp only [List.cons_append,absorb]
    cases slots[index]? with
    | none => rfl
    | some slot =>
      dsimp only
      cases join slot type with
      | none => rfl
      | some actualType => exact ih _

mutual

/-- The arguments of a template instance do not match, which `NamedType::deduceTemplateArgs`
computes and does not return. -/
def ignores : Ty → Slots → Ty → Bool
  | .templatePtr baseType _, slots, type =>
      match templatePtrTarget type with
      | none => false
      | some targetType => ignores baseType slots targetType
  | .templateIntMod baseType, slots, type =>
      match intModReferenceType type with
      | none => false
      | some referenceType => ignores baseType slots referenceType
  | .ptr kind _ _ targetType, slots, type =>
      match ptrTarget kind type with
      | none => false
      | some referenceTarget => ignores targetType slots referenceTarget
  | .function _ returnType argArray, slots, type =>
      match type with
      | .function _ returnType' argArray' =>
          ignores returnType slots returnType' ||
            ignoresAny argArray (deduceTemplateArgs returnType slots returnType').2 argArray'
      | _ => false
  | .property _ getterReturnType, slots, type =>
      match type with
      | .property _ getterReturnType' => ignores getterReturnType slots getterReturnType'
      | _ => false
  | .instance kind template argArray, slots, type =>
      match instanceArgs kind template type with
      | none => false
      | some argArray' =>
          !(deduceArgArray argArray slots argArray').1 || ignoresAny argArray slots argArray'
  | .primitive _, _, _ | .array _ _, _, _ | .enum _ _, _, _ | .named _ _, _, _
  | .templateArg _, _, _ | .templateTypeName _, _, _ => false

def ignoresAny : Tys → Slots → Tys → Bool
  | .cons type rest, slots, .cons type' rest' =>
      ignores type slots type' || ignoresAny rest (deduceTemplateArgs type slots type').2 rest'
  | _, _, _ => false

end

/-- The result is `true`, with the slots, if there are any, and `false` otherwise. -/
def Meets (r : Bool × Slots) : Option Slots → Prop
  | some slots => r = (true,slots)
  | none => r.1 = false

theorem Meets.then {r r' : Bool × Slots} {slots : Slots} {o o' : Option (List (ℕ × Ty))}
    (h : Meets r (o.bind (absorb slots))) (h' : Meets r' (o'.bind (absorb r.2))) :
    Meets (r.1 && r'.1,r'.2)
      ((match o,o' with
        | some ds, some ds' => some (ds ++ ds')
        | _, _ => none).bind (absorb slots)) := by
  cases o with
  | none =>
    have hfalse : r.1 = false := h
    show (r.1 && r'.1) = false
    rw [hfalse]
    rfl
  | some ds =>
    rw [Option.bind_some] at h
    cases o' with
    | none =>
      have hfalse : r'.1 = false := h'
      show (r.1 && r'.1) = false
      rw [hfalse,Bool.and_false]
    | some ds' =>
      rw [Option.bind_some] at h' ⊢
      rw [absorb_append]
      cases habsorb : absorb slots ds with
      | none =>
        rw [habsorb] at h
        have hfalse : r.1 = false := h
        show (r.1 && r'.1) = false
        rw [hfalse]
        rfl
      | some slots₁ =>
        rw [habsorb] at h
        have hr : r = (true,slots₁) := h
        subst hr
        rw [Option.bind_some]
        rw [Bool.true_and]
        exact h'

theorem Meets.andLength {r : Bool × Slots} {slots : Slots} {o : Option (List (ℕ × Ty))}
    (h : Meets r (o.bind (absorb slots))) (p : Prop) [Decidable p] :
    Meets (r.1 && decide p,r.2) ((if p then o else none).bind (absorb slots)) := by
  by_cases hp : p
  · rw [if_pos hp,decide_eq_true hp,Bool.and_true]
    exact h
  · rw [if_neg hp,decide_eq_false hp,Bool.and_false]
    rfl

mutual

theorem deduceTemplateArgs_meets : ∀ (d : Ty) (slots : Slots) (type : Ty),
    ignores d slots type = false →
      Meets (deduceTemplateArgs d slots type) ((demands d type).bind (absorb slots))
  | .templateArg index, slots, type, _ => by
    unfold deduceTemplateArgs demands
    simp only [Option.bind_some,absorb]
    cases slots[index]? with
    | none => rfl
    | some slot =>
      dsimp only
      cases join slot type with
      | none => rfl
      | some actualType => rfl
  | .templateTypeName name, slots, type, _ => rfl
  | .templatePtr baseType typeModifiers, slots, type, h => by
    unfold deduceTemplateArgs demands
    unfold ignores at h
    cases htarget : templatePtrTarget type with
    | none => rfl
    | some targetType =>
      simp only [htarget] at h
      exact deduceTemplateArgs_meets baseType slots targetType h
  | .templateIntMod baseType, slots, type, h => by
    unfold deduceTemplateArgs demands
    unfold ignores at h
    cases htarget : intModReferenceType type with
    | none => rfl
    | some referenceType =>
      simp only [htarget] at h
      exact deduceTemplateArgs_meets baseType slots referenceType h
  | .ptr kind isRef flags targetType, slots, type, h => by
    unfold deduceTemplateArgs demands
    unfold ignores at h
    cases htarget : ptrTarget kind type with
    | none => rfl
    | some referenceTarget =>
      simp only [htarget] at h
      exact deduceTemplateArgs_meets targetType slots referenceTarget h
  | .function flags returnType argArray, slots, type, h => by
    cases type with
    | function flags' returnType' argArray' =>
      unfold deduceTemplateArgs demands
      unfold ignores at h
      rw [Bool.or_eq_false_iff] at h
      have hreturn := deduceTemplateArgs_meets returnType slots returnType' h.1
      have hargs := deduceArgArray_meets argArray _ argArray' h.2
      exact (hreturn.then hargs).andLength (argArray.length = argArray'.length)
    | _ => rfl
  | .property signature getterReturnType, slots, type, h => by
    cases type with
    | property signature' getterReturnType' =>
      unfold deduceTemplateArgs demands
      unfold ignores at h
      exact deduceTemplateArgs_meets getterReturnType slots getterReturnType' h
    | _ => rfl
  | .instance kind template argArray, slots, type, h => by
    unfold deduceTemplateArgs demands
    unfold ignores at h
    cases hargs : instanceArgs kind template type with
    | none => rfl
    | some argArray' =>
      simp only [hargs] at h
      rw [Bool.or_eq_false_iff,Bool.not_eq_false'] at h
      have hmeets := deduceArgArray_meets argArray slots argArray' h.2
      dsimp only
      rw [← h.1]
      exact hmeets
  | .primitive kind, slots, type, _ => rfl
  | .array elementType elementCount, slots, type, _ => rfl
  | .enum name baseType, slots, type, _ => rfl
  | .named kind name, slots, type, _ => rfl

theorem deduceArgArray_meets : ∀ (ds : Tys) (slots : Slots) (types : Tys),
    ignoresAny ds slots types = false →
      Meets (deduceArgArray ds slots types) ((demandsAll ds types).bind (absorb slots))
  | .nil, slots, types, _ => rfl
  | .cons d ds, slots, .nil, _ => rfl
  | .cons d ds, slots, .cons type types, h => by
    unfold deduceArgArray demandsAll
    unfold ignoresAny at h
    rw [Bool.or_eq_false_iff] at h
    exact (deduceTemplateArgs_meets d slots type h.1).then (deduceArgArray_meets ds _ types h.2)

end

def demandsFor (index : ℕ) (ds : List (ℕ × Ty)) : List Ty :=
  ds.filterMap fun d => if d.1 = index then some d.2 else none

def joinAll : Option Ty → List Ty → Option (Option Ty)
  | slot, [] => some slot
  | slot, type :: types =>
      match join slot type with
      | none => none
      | some actualType => joinAll (some actualType) types

theorem demandsFor_cons_self (index : ℕ) (type : Ty) (ds : List (ℕ × Ty)) :
    demandsFor index ((index,type) :: ds) = type :: demandsFor index ds := by
  simp [demandsFor]

theorem demandsFor_cons_ne {index i : ℕ} (h : index ≠ i) (type : Ty) (ds : List (ℕ × Ty)) :
    demandsFor i ((index,type) :: ds) = demandsFor i ds := by
  simp [demandsFor,h]

theorem slots_ext {slots slots' : Slots} (hlength : slots.length = slots'.length)
    (h : ∀ i : ℕ, slots[i]?.join = slots'[i]?.join) : slots = slots' := by
  apply List.ext_getElem hlength
  intro i hi hi'
  have hjoin := h i
  rw [List.getElem?_eq_getElem hi,List.getElem?_eq_getElem hi'] at hjoin
  exact hjoin

theorem absorb_iff (ds : List (ℕ × Ty)) (slots' : Slots) :
    ∀ slots : Slots, absorb slots ds = some slots' ↔
      (∀ d ∈ ds, d.1 < slots.length) ∧ slots'.length = slots.length ∧
        ∀ i : ℕ, joinAll slots[i]?.join (demandsFor i ds) = some slots'[i]?.join := by
  induction ds with
  | nil =>
    intro slots
    simp only [absorb,Option.some.injEq]
    constructor
    · rintro rfl
      exact ⟨by simp,rfl,fun _ => rfl⟩
    · rintro ⟨_,hlength,hjoins⟩
      exact slots_ext hlength.symm fun i => Option.some.inj (hjoins i)
  | cons d ds ih =>
    intro slots
    obtain ⟨index,type⟩ := d
    cases hslot : slots[index]? with
    | none =>
      simp only [absorb,hslot]
      constructor
      · intro h
        cases h
      · rintro ⟨hinside,_⟩
        have hlt : index < slots.length := hinside (index,type) List.mem_cons_self
        rw [List.getElem?_eq_getElem hlt] at hslot
        cases hslot
    | some slot =>
      have hlt : index < slots.length := (List.getElem?_eq_some_iff.mp hslot).1
      have hself : slots[index]?.join = slot := by
        rw [hslot]
        rfl
      cases hjoin : join slot type with
      | none =>
        simp only [absorb,hslot,hjoin]
        constructor
        · intro h
          cases h
        · rintro ⟨_,_,hjoins⟩
          have hindex := hjoins index
          rw [demandsFor_cons_self,hself] at hindex
          simp only [joinAll,hjoin] at hindex
          cases hindex
      | some actualType =>
        simp only [absorb,hslot,hjoin]
        rw [ih]
        have hstep : ∀ i : ℕ,
            joinAll (slots.set index (some actualType))[i]?.join (demandsFor i ds) =
              joinAll slots[i]?.join (demandsFor i ((index,type) :: ds)) := by
          intro i
          by_cases hi : index = i
          · subst hi
            rw [demandsFor_cons_self,hself,List.getElem?_set_self hlt]
            simp only [joinAll,hjoin,Option.join_some]
          · rw [demandsFor_cons_ne hi,List.getElem?_set_ne hi]
        simp only [hstep,List.length_set,List.forall_mem_cons,hlt,true_and]

def Promoted (type : Ty) : Prop :=
  ∃ kind promoted, arithmeticKind kind = some promoted ∧ type = .primitive promoted

theorem getArithmeticOperatorResultType_promoted : ∀ {opType type : Ty},
    getArithmeticOperatorResultType opType = some type → Promoted type
  | .primitive kind, type, h => by
    unfold getArithmeticOperatorResultType at h
    obtain ⟨promoted,hkind,rfl⟩ := Option.map_eq_some_iff.mp h
    exact ⟨kind,promoted,hkind,rfl⟩
  | .enum name baseType, type, h => @getArithmeticOperatorResultType_promoted baseType type h

theorem join_cases {slot : Option Ty} {type actualType : Ty} (h : join slot type = some actualType) :
    (∀ old ∈ slot, old = type) ∧ actualType = type ∨ Promoted actualType := by
  cases slot with
  | none =>
    cases h
    exact Or.inl ⟨by simp,rfl⟩
  | some old =>
    simp only [join,selectTemplateArg] at h
    split at h
    · rename_i heq
      cases h
      exact Or.inl ⟨fun _ h => (Option.some.inj h).symm.trans heq,heq⟩
    · exact Or.inr (getArithmeticOperatorResultType_promoted h)

theorem joinAll_covers : ∀ {types : List Ty} {slot : Option Ty} {type : Ty},
    joinAll slot types = some (some type) → ∀ t ∈ slot.toList ++ types, type = t ∨ Promoted type := by
  intro types
  induction types with
  | nil =>
    intro slot type h
    cases h
    simp
  | cons next types ih =>
    intro slot type h
    simp only [joinAll] at h
    cases hjoin : join slot next with
    | none =>
      rw [hjoin] at h
      cases h
    | some actualType =>
      simp only [hjoin] at h
      have hlater := ih h
      cases join_cases hjoin with
      | inl heq =>
        obtain ⟨hold,rfl⟩ := heq
        intro t ht
        cases List.mem_append.mp ht with
        | inl ht =>
          rw [hold t (Option.mem_toList.mp ht)]
          exact hlater _ (by simp)
        | inr ht => exact hlater t (by simpa using ht)
      | inr hpromoted =>
        have hall : Promoted type := by
          cases hlater actualType (by simp) with
          | inl heq =>
            rw [heq]
            exact hpromoted
          | inr hpromoted => exact hpromoted
        exact fun _ _ => Or.inr hall

theorem joinAll_agreed (agreed : Ty) : ∀ {types : List Ty} {slot : Option Ty} {type : Ty},
    (∀ t ∈ slot.toList ++ types, t = agreed) → joinAll slot types = some (some type) →
      type = agreed := by
  intro types
  induction types with
  | nil =>
    intro slot type hagree h
    cases h
    exact hagree type (by simp)
  | cons next types ih =>
    intro slot type hagree h
    have hnext : next = agreed := hagree next (by simp)
    have hjoin : join slot next = some agreed := by
      cases slot with
      | none => rw [← hnext]; rfl
      | some old =>
        have hold : old = agreed := hagree old (by simp)
        rw [hnext,hold]
        exact if_pos rfl
    simp only [joinAll,hjoin] at h
    apply ih _ h
    intro t ht
    cases List.mem_append.mp ht with
    | inl ht => exact (Option.some.inj (Option.mem_toList.mp ht)).symm
    | inr ht => exact hagree t (by simp [ht])

section DeduceArgs

variable {ν : Type} (prepareOperandType : ν → Option Ty)

/-- The demands of a call. -/
def demandsOf : Tys → List ν → Option (List (ℕ × Ty))
  | .cons type rest, value :: values =>
      match
        match prepareOperandType value with
        | none => none
        | some argType => demands type argType,
        demandsOf rest values with
      | some ds, some ds' => some (ds ++ ds')
      | _, _ => none
  | _, _ => some []

def ignoresOf : Tys → Slots → List ν → Bool
  | .cons type rest, slots, value :: values =>
      match prepareOperandType value with
      | none => ignoresOf rest slots values
      | some argType =>
          ignores type slots argType ||
            ignoresOf rest (deduceTemplateArgs type slots argType).2 values
  | _, _, _ => false

/-- The deduction ignores that the arguments of a template instance do not match. -/
def Template.ignores (t : Template) (argTypeArray : List (Option Ty)) (argValueList : List ν) :
    Bool :=
  match t.declType with
  | some (.function _ _ argArray) =>
      ignoresOf prepareOperandType argArray (explicitSlots t.argCount argTypeArray) argValueList
  | _ => false

theorem deduceArgValues_meets : ∀ (ds : Tys) (slots : Slots) (values : List ν),
    ignoresOf prepareOperandType ds slots values = false →
      Meets (deduceArgValues prepareOperandType ds slots values)
        ((demandsOf prepareOperandType ds values).bind (absorb slots))
  | .nil, slots, values, _ => rfl
  | .cons d ds, slots, [], _ => rfl
  | .cons d ds, slots, value :: values, h => by
    unfold deduceArgValues demandsOf
    unfold ignoresOf at h
    cases hvalue : prepareOperandType value with
    | none =>
      simp only [hvalue] at h
      have hnone : Meets (false,slots) ((none : Option (List (ℕ × Ty))).bind (absorb slots)) :=
        rfl
      exact hnone.then (deduceArgValues_meets ds slots values h)
    | some argType =>
      simp only [hvalue] at h
      rw [Bool.or_eq_false_iff] at h
      exact (deduceTemplateArgs_meets d slots argType h.1).then
        (deduceArgValues_meets ds _ values h.2)

structure Deduced (t : Template) (argTypeArray : List (Option Ty)) (argValueList : List ν)
    (types : List Ty) (argArray : Tys) (ds : List (ℕ × Ty)) : Prop where
  function : ∃ flags returnType, t.declType = some (.function flags returnType argArray)
  argCount : argArray.length = argValueList.length
  matched : demandsOf prepareOperandType argArray argValueList = some ds
  complete : types.length = t.argCount
  inside : ∀ d ∈ ds, d.1 < t.argCount
  joined : ∀ i < t.argCount, joinAll argTypeArray[i]?.join (demandsFor i ds) = some types[i]?
  covers : ∀ (i : ℕ) (h : i < types.length), ∀ given ∈ argTypeArray[i]?.join.toList ++ demandsFor i ds,
    types[i] = given ∨ Promoted types[i]
  agreed : ∀ (i : ℕ) (h : i < types.length) (type : Ty),
    (∀ given ∈ argTypeArray[i]?.join.toList ++ demandsFor i ds, given = type) → types[i] = type

theorem firstMissing_none {slots : Slots} :
    firstMissing slots = none ↔ ∃ types : List Ty, slots = types.map some := by
  unfold firstMissing
  rw [List.findIdx?_eq_none_iff]
  constructor
  · intro h
    refine ⟨slots.filterMap id,?_⟩
    induction slots with
    | nil => rfl
    | cons slot slots ih =>
      cases slot with
      | none => cases h none List.mem_cons_self
      | some type =>
        have hrest := ih fun slot hslot => h slot (List.mem_cons_of_mem _ hslot)
        show some type :: slots = some type :: (slots.filterMap id).map some
        rw [← hrest]
  · rintro ⟨types,rfl⟩ slot hslot
    obtain ⟨type,_,rfl⟩ := List.mem_map.mp hslot
    rfl

theorem explicitSlots_join {argCount i : ℕ} (h : i < argCount) (argTypeArray : List (Option Ty)) :
    (explicitSlots argCount argTypeArray)[i]?.join = argTypeArray[i]?.join := by
  simp [explicitSlots,h]

theorem length_explicitSlots (argCount : ℕ) (argTypeArray : List (Option Ty)) :
    (explicitSlots argCount argTypeArray).length = argCount := by
  simp [explicitSlots]

theorem Meets.eq_iff {r : Bool × Slots} {o : Option Slots} (h : Meets r o) (slots : Slots) :
    r = (true,slots) ↔ o = some slots := by
  cases o with
  | none =>
    have hfalse : r.1 = false := h
    constructor
    · intro hr
      rw [hr] at hfalse
      cases hfalse
    · intro hnone
      cases hnone
  | some slots' =>
    have hr : r = (true,slots') := h
    subst hr
    rw [Prod.mk.injEq,Option.some.injEq]
    exact ⟨fun heq => heq.2,fun heq => ⟨rfl,heq⟩⟩

theorem deduceArgs_ok_iff (t : Template) {flags : ℕ} {returnType : Ty} {argArray : Tys}
    (hdecl : t.declType = some (.function flags returnType argArray))
    (argTypeArray : List (Option Ty)) (argValueList : List ν) (types : List Ty) :
    t.deduceArgs prepareOperandType argTypeArray argValueList = .ok types ↔
      argArray.length = argValueList.length ∧
        deduceArgValues prepareOperandType argArray (explicitSlots t.argCount argTypeArray)
          argValueList = (true,types.map some) := by
  unfold Template.deduceArgs
  rw [hdecl]
  dsimp only
  split
  · rename_i hcount
    constructor
    · intro h
      cases h
    · rintro ⟨hcount',_⟩
      exact absurd hcount' hcount
  · rename_i hcount
    rw [not_not] at hcount
    rcases hr : deduceArgValues prepareOperandType argArray (explicitSlots t.argCount argTypeArray)
      argValueList with ⟨result,slots⟩
    dsimp only
    cases hmissing : firstMissing slots with
    | some index =>
      constructor
      · intro h
        cases h
      · rintro ⟨_,heq⟩
        cases heq
        rw [firstMissing_none.mpr ⟨types,rfl⟩] at hmissing
        cases hmissing
    | none =>
      obtain ⟨types',rfl⟩ := firstMissing_none.mp hmissing
      have hfilter : (types'.map some).filterMap id = types' := by
        simp [List.filterMap_map]
      dsimp only
      rw [hfilter]
      cases result with
      | false =>
        constructor
        · intro h
          cases h
        · rintro ⟨_,heq⟩
          cases heq
      | true =>
        rw [if_pos rfl,Except.ok.injEq,Prod.mk.injEq]
        constructor
        · rintro rfl
          exact ⟨hcount,rfl,rfl⟩
        · rintro ⟨_,_,heq⟩
          exact List.map_injective_iff.mpr (fun _ _ h => Option.some.inj h) heq

/-- Unless a mismatch inside a template instance is ignored, the deduction succeeds if and only if
all declared types match and every parameter has a join of the types for it; it gives these joins. -/
theorem deduceArgs_iff (t : Template) (argTypeArray : List (Option Ty)) (argValueList : List ν)
    (types : List Ty) (h : t.ignores prepareOperandType argTypeArray argValueList = false) :
    t.deduceArgs prepareOperandType argTypeArray argValueList = .ok types ↔
      ∃ argArray ds,
        Deduced prepareOperandType t argTypeArray argValueList types argArray ds := by
  constructor
  · intro hok
    cases hdecl : t.declType with
    | none => simp only [Template.deduceArgs,hdecl] at hok; cases hok
    | some declType =>
        cases declType with
        | function flags returnType argArray =>
            simp only [Template.ignores,hdecl] at h
            obtain ⟨hcount,hvalues⟩ := (deduceArgs_ok_iff prepareOperandType t hdecl _ _ _).mp hok
            have hmeets := (deduceArgValues_meets prepareOperandType argArray _ _ h).eq_iff _ |>.mp
              hvalues
            obtain ⟨ds,hds,habsorb⟩ := Option.bind_eq_some_iff.mp hmeets
            obtain ⟨hinside,hlength,hjoins⟩ := (absorb_iff _ _ _).mp habsorb
            rw [length_explicitSlots,List.length_map] at hlength
            rw [length_explicitSlots] at hinside
            have hjoined : ∀ i < t.argCount,
                joinAll argTypeArray[i]?.join (demandsFor i ds) = some types[i]? := by
              intro i hi
              have hjoin := hjoins i
              rw [explicitSlots_join hi,List.getElem?_map] at hjoin
              rw [hjoin]
              cases types[i]? <;> rfl
            have hone : ∀ (i : ℕ) (hi : i < types.length),
                joinAll argTypeArray[i]?.join (demandsFor i ds) = some (some types[i]) := by
              intro i hi
              rw [hjoined i (by omega),List.getElem?_eq_getElem hi]
            exact ⟨argArray,ds,⟨flags,returnType,hdecl⟩,hcount,hds,hlength,hinside,hjoined,
              fun i hi => joinAll_covers (hone i hi),
              fun i hi type hagree => joinAll_agreed type hagree (hone i hi)⟩
        | _ => simp only [Template.deduceArgs,hdecl] at hok; cases hok
  · rintro ⟨argArray,ds,hdeduced⟩
    obtain ⟨flags,returnType,hdecl⟩ := hdeduced.function
    simp only [Template.ignores,hdecl] at h
    refine (deduceArgs_ok_iff prepareOperandType t hdecl _ _ _).mpr ⟨hdeduced.argCount,?_⟩
    refine ((deduceArgValues_meets prepareOperandType argArray _ _ h).eq_iff _).mpr ?_
    rw [hdeduced.matched,Option.bind_some]
    apply (absorb_iff _ _ _).mpr
    rw [length_explicitSlots,List.length_map]
    refine ⟨hdeduced.inside,hdeduced.complete,?_⟩
    intro i
    rw [List.getElem?_map]
    cases Nat.lt_or_ge i t.argCount with
    | inl hi =>
        rw [explicitSlots_join hi,hdeduced.joined i hi]
        cases types[i]? <;> rfl
    | inr hi =>
        have hnone : demandsFor i ds = [] := by
          apply List.filterMap_eq_nil_iff.mpr
          intro d hd
          have hlt := hdeduced.inside d hd
          rw [if_neg (by omega)]
        have htypes : types[i]? = none := List.getElem?_eq_none (by rw [hdeduced.complete]; exact hi)
        have hslots : (explicitSlots t.argCount argTypeArray)[i]? = none :=
          List.getElem?_eq_none (by rw [length_explicitSlots]; exact hi)
        rw [hnone,htypes,hslots]
        rfl

end DeduceArgs

def int8 : Ty := .primitive .int8

def int32 : Ty := .primitive .int32

/-- `void foo<T>(Box<T> box, T* p)`. -/
def fooTemplate : Template :=
  ⟨1,some (.function 0 (.primitive .void)
    (.cons (.instance .struct "Box" (.cons (.templateArg 0) .nil))
      (.cons (.templatePtr (.templateArg 0) 0) .nil)))⟩

def fooValues : List Ty :=
  [.instance .struct "Box" (.cons int32 .nil),.ptr .data true 0 (.array int32 4)]

/-- The call with a box and an array of integers. -/
theorem deduceArgs_foo :
    fooTemplate.deduceArgs some [] fooValues = .ok [int32] ∧
      ∃ argArray ds, Deduced some fooTemplate [] fooValues [int32] argArray ds := by
  have hok : fooTemplate.deduceArgs some [] fooValues = .ok [int32] := by rfl
  exact ⟨hok,(deduceArgs_iff some fooTemplate [] fooValues [int32] rfl).mp hok⟩

/-- `void bar<T>(T* p, T x)`. -/
def barTemplate : Template :=
  ⟨1,some (.function 0 (.primitive .void)
    (.cons (.templatePtr (.templateArg 0) 0) (.cons (.templateArg 0) .nil)))⟩

/-- A `char*` and an `int` demand two types for `T`, and the type that is given is a third one. The
deduction takes `int`: it neither fails nor keeps the type given, and `p` would be an `int*`. -/
theorem bar_takes_int :
    barTemplate.deduceArgs some [some (.primitive .int16)] [.ptr .data false 0 int8,int32] =
        .ok [int32] ∧
      demandsOf some (.cons (.templatePtr (.templateArg 0) 0) (.cons (.templateArg 0) .nil))
        [.ptr .data false 0 int8,int32] = some [(0,int8),(0,int32)] ∧
      int32 ≠ .primitive .int16 ∧ int32 ≠ int8 := by
  refine ⟨rfl,rfl,?_,?_⟩ <;> decide

end Jancy.Ct.TemplateArgs
