import Jancy.Ct.OverloadChoice
import Jancy.Ct.ConstFolding
import Mathlib.Data.List.Perm.Basic

/-! The cast kind of an argument list is the minimum over its arguments, and the overload that is
chosen does not depend on the order of the overloads. -/
namespace Jancy.Ct.Overloads

open Properties (CastKind IsBest Chosen)

variable {τ υ α : Type} {kindOf : FormalArg τ → α → CastKind}

theorem none_le (kind : CastKind) : .none ≤ kind := by
  cases kind <;> decide

theorem le_identity (kind : CastKind) : kind ≤ .identity := by
  cases kind <;> decide

theorem worstCastKind_eq (worst : CastKind) (pairs : List (FormalArg τ × α)) :
    worstCastKind kindOf worst pairs =
      min worst (minimum (pairs.map fun pair => kindOf pair.1 pair.2)) := by
  induction pairs generalizing worst with
  | nil => exact (min_eq_left (le_identity worst)).symm
  | cons pair rest ih =>
    obtain ⟨formalArg,actualArg⟩ := pair
    show (if kindOf formalArg actualArg = .none then .none
      else worstCastKind kindOf (if kindOf formalArg actualArg < worst
        then kindOf formalArg actualArg else worst) rest) =
      min worst (min (kindOf formalArg actualArg) _)
    split
    next hnone => rw [hnone,min_eq_left (none_le _),min_eq_right (none_le _)]
    next =>
      rw [ih,← min_assoc]
      congr 1
      split
      next hlt => exact (min_eq_right hlt.le).symm
      next hle => exact (min_eq_left (not_lt.1 hle)).symm

theorem argCastKinds_superfluous {isVarArg : Bool} (args : List (FormalArg τ))
    (actualArgs : List α) (h : args.length < actualArgs.length) :
    minimum (argCastKinds kindOf isVarArg args actualArgs) =
      min (if isVarArg then .identity else .none)
        (minimum ((args.zip actualArgs).map fun pair => kindOf pair.1 pair.2)) := by
  induction args generalizing actualArgs with
  | nil =>
    have hall : ∀ actualArgs : List α,
        minimum (argCastKinds kindOf isVarArg [] actualArgs) =
          if actualArgs = [] then .identity else if isVarArg then .identity else .none := by
      intro actualArgs
      induction actualArgs with
      | nil => rfl
      | cons actualArg actualArgs ih =>
        show min _ (minimum (argCastKinds kindOf isVarArg [] actualArgs)) = _
        rw [ih]
        cases isVarArg <;> cases actualArgs <;> rfl
    rw [hall,if_neg (List.ne_nil_of_length_pos h)]
    exact (min_eq_left (le_identity _)).symm
  | cons formalArg args ih =>
    cases actualArgs with
    | nil => exact absurd h (Nat.not_lt_zero _)
    | cons actualArg actualArgs =>
      show min (kindOf formalArg actualArg) (minimum (argCastKinds kindOf isVarArg args _)) =
        min _ (min (kindOf formalArg actualArg) _)
      rw [ih actualArgs (Nat.lt_of_succ_lt_succ h),min_left_comm]
      rfl

theorem argCastKinds_omitted {isVarArg : Bool} (args : List (FormalArg τ))
    (actualArgs : List α) (h : actualArgs.length ≤ args.length) :
    minimum (argCastKinds kindOf isVarArg args actualArgs) =
      if (args.drop actualArgs.length).all (·.hasInitializer) then
        minimum (((args.take actualArgs.length).zip actualArgs).map fun pair =>
          kindOf pair.1 pair.2)
      else .none := by
  induction args generalizing actualArgs with
  | nil =>
    obtain rfl := List.eq_nil_of_length_eq_zero (Nat.le_zero.1 h)
    rfl
  | cons formalArg args ih =>
    cases actualArgs with
    | nil =>
      show min _ (minimum (argCastKinds kindOf isVarArg args [])) =
        if (formalArg :: args).all (·.hasInitializer) then .identity else .none
      rw [ih [] (Nat.zero_le _),List.all_cons]
      cases formalArg.hasInitializer with
      | true => exact min_eq_right (le_identity _)
      | false => exact min_eq_left (none_le _)
    | cons actualArg actualArgs =>
      show min (kindOf formalArg actualArg) (minimum (argCastKinds kindOf isVarArg args _)) =
        if (args.drop actualArgs.length).all (·.hasInitializer) then
          min (kindOf formalArg actualArg) _ else .none
      rw [ih actualArgs (Nat.le_of_succ_le_succ h)]
      split
      next => rfl
      next => exact min_eq_right (none_le _)

theorem skipInitialized_eq (args : List (FormalArg τ)) {actualArgCount formalArgCount : ℕ}
    (h : actualArgCount ≤ formalArgCount) (h' : formalArgCount ≤ args.length) :
    skipInitialized args actualArgCount formalArgCount =
      if ((args.take formalArgCount).drop actualArgCount).all (·.hasInitializer) then
        some actualArgCount
      else none := by
  induction formalArgCount with
  | zero =>
    obtain rfl := Nat.le_zero.1 h
    rfl
  | succ n ih =>
    rw [skipInitialized]
    split
    next hlt =>
      have hn : n < args.length := h'
      have hlength : actualArgCount ≤ (args.take n).length := by
        rw [List.length_take,Nat.min_eq_left hn.le]
        exact Nat.le_of_lt_succ hlt
      rw [ih (Nat.le_of_lt_succ hlt) hn.le,List.take_succ_eq_append_getElem hn,
        List.drop_append_of_le_length hlength,List.all_append,List.getElem?_eq_getElem hn]
      simp only [Option.any_some,List.all_cons,List.all_nil,Bool.and_true]
      by_cases hinit : args[n].hasInitializer = true <;> simp [hinit]
    next hge =>
      obtain rfl : actualArgCount = n + 1 := by omega
      have hempty : (args.take (n + 1)).drop (n + 1) = [] :=
        List.drop_eq_nil_of_le (List.length_take_le _ _)
      rw [hempty]
      rfl

theorem argCastKind_eq (functionType : FunctionType τ) (args : List (FormalArg τ))
    (actualArgs : List α) :
    argCastKind kindOf functionType args actualArgs false =
      minimum (argCastKinds kindOf functionType.isVarArg args actualArgs) := by
  unfold argCastKind
  split
  next h =>
    rw [argCastKinds_superfluous args actualArgs h,worstCastKind_eq]
    rfl
  next h =>
    have hle := Nat.le_of_not_lt h
    rw [argCastKinds_omitted args actualArgs hle,skipInitialized_eq args hle le_rfl,
      List.take_length]
    split
    next hall =>
      split at hall
      · cases hall
      next hinit => rw [if_neg hinit]
    next count hcount =>
      split at hcount
      next hinit =>
        obtain rfl := Option.some.inj hcount
        rw [if_pos hinit,worstCastKind_eq]
        exact min_eq_right (le_identity _)
      · cases hcount

/-- What comes of the choice once the layout is there. -/
inductive Outcome (castKinds : List CastKind) : Except OverloadError (ℕ × CastKind) → Prop where
  | best (i : ℕ) (kind : CastKind) (hi : castKinds[i]? = some kind) (hkind : kind ≠ .none)
      (hbest : ∀ (j : ℕ) (kind' : CastKind), j ≠ i → castKinds[j]? = some kind' → kind' < kind) :
      Outcome castKinds (.ok (i,kind))
  | noMatch (hnone : ∀ kind ∈ castKinds, kind = .none) :
      Outcome castKinds (.error (.noMatch castKinds.length))
  | ambiguous (i j : ℕ) (kind : CastKind) (hne : i ≠ j) (hi : castKinds[i]? = some kind)
      (hj : castKinds[j]? = some kind) (hkind : kind ≠ .none)
      (hle : ∀ kind' ∈ castKinds, kind' ≤ kind) : Outcome castKinds (.error .ambiguous)

theorem chooseOverload_outcome (castKindOf : FunctionType τ → CastKind)
    {typeOverload : FunctionTypeOverload τ} (hlayout : typeOverload.hasLayout = true) :
    Outcome (typeOverload.overloads.map castKindOf) (chooseOverload castKindOf typeOverload) := by
  unfold chooseOverload FunctionTypeOverload.overloads
  rw [hlayout,List.map_cons]
  simp only [Bool.not_true,Bool.false_eq_true,if_false]
  generalize castKindOf typeOverload.type = kind
  generalize typeOverload.overloadArray.map castKindOf = kinds
  obtain ⟨best,hchosen⟩ := (Chosen.start kind).step kinds
  have hone : ([kind] : List CastKind).length = 1 := rfl
  rw [hone,List.singleton_append] at hchosen
  generalize Properties.chooseStep kinds 1 kind (if kind = .none then none else some 0) false = r
    at hchosen
  obtain ⟨bestOverload,isAmbiguous⟩ := r
  cases bestOverload with
  | none =>
    have hnone := hchosen.unset rfl
    exact .noMatch fun kind' hkind' =>
      le_antisymm (hnone ▸ hchosen.le kind' hkind') (none_le kind')
  | some i =>
    obtain ⟨hbest,hi⟩ := hchosen.set i rfl
    cases isAmbiguous with
    | true =>
      obtain ⟨_,j,j',hne,hj,hj'⟩ := hchosen.ambiguous rfl
      exact .ambiguous j j' best hne hj hj' hbest hchosen.le
    | false =>
      simp only [hi,Option.getD_some]
      exact .best i best hi hbest fun j kind' hne hj => hchosen.clear rfl i rfl j kind' hne hj

section Outcomes

variable {castKinds : List CastKind} {r : Except OverloadError (ℕ × CastKind)}

theorem not_isBest_of_none (h : ∀ kind ∈ castKinds, kind = .none) (i : ℕ) :
    ¬IsBest castKinds i := by
  rintro ⟨kind,hi,hkind,_⟩
  exact hkind (h kind (List.mem_of_getElem? hi))

theorem not_isBest_of_equal {i j k : ℕ} {kind : CastKind} (hne : i ≠ j)
    (hi : castKinds[i]? = some kind) (hj : castKinds[j]? = some kind)
    (hle : ∀ kind' ∈ castKinds, kind' ≤ kind) : ¬IsBest castKinds k := by
  rintro ⟨best,hk,_,hbest⟩
  have hmax := hle best (List.mem_of_getElem? hk)
  by_cases hik : i = k
  · exact absurd (hbest j kind (fun hjk => hne (hik.trans hjk.symm)) hj) (not_lt.2 hmax)
  · exact absurd (hbest i kind hik hi) (not_lt.2 hmax)

theorem Outcome.ok_iff (h : Outcome castKinds r) {i : ℕ} {kind : CastKind} :
    r = .ok (i,kind) ↔ castKinds[i]? = some kind ∧ IsBest castKinds i := by
  cases h with
  | best j kind' hj hkind hbest =>
    constructor
    · rintro ⟨⟩
      exact ⟨hj,_,hj,hkind,hbest⟩
    · rintro ⟨hi,best,hi',_,hbest'⟩
      obtain rfl : kind = best := Option.some.inj (hi.symm.trans hi')
      have hij : i = j := by
        by_contra hne
        have hlt := hbest i kind hne hi
        exact absurd (hbest' j kind' (Ne.symm hne) hj) (not_lt.2 hlt.le)
      subst hij
      have hkinds : kind = kind' := Option.some.inj (hi.symm.trans hj)
      rw [hkinds]
  | noMatch hnone =>
    exact ⟨fun h => (by cases h),fun h => absurd h.2 (not_isBest_of_none hnone i)⟩
  | ambiguous j j' kind' hne hj hj' hkind hle =>
    exact ⟨fun h => (by cases h),fun h => absurd h.2 (not_isBest_of_equal hne hj hj' hle)⟩

theorem Outcome.noMatch_iff (h : Outcome castKinds r) {n : ℕ} :
    r = .error (.noMatch n) ↔ n = castKinds.length ∧ ∀ kind ∈ castKinds, kind = .none := by
  cases h with
  | best j kind hj hkind hbest =>
    exact ⟨fun h => (by cases h),fun h => absurd (h.2 kind (List.mem_of_getElem? hj)) hkind⟩
  | noMatch hnone =>
    constructor
    · rintro ⟨⟩
      exact ⟨rfl,hnone⟩
    · rintro ⟨rfl,_⟩
      rfl
  | ambiguous j j' kind hne hj hj' hkind hle =>
    exact ⟨fun h => (by cases h),fun h => absurd (h.2 kind (List.mem_of_getElem? hj)) hkind⟩

theorem Outcome.ambiguous_iff (h : Outcome castKinds r) :
    r = .error .ambiguous ↔
      (∃ kind ∈ castKinds, kind ≠ .none) ∧ ∀ i, ¬IsBest castKinds i := by
  cases h with
  | best j kind hj hkind hbest =>
    exact ⟨fun h => (by cases h),fun h => absurd ⟨kind,hj,hkind,hbest⟩ (h.2 j)⟩
  | noMatch hnone =>
    refine ⟨fun h => (by cases h),fun h => ?_⟩
    obtain ⟨⟨kind,hmem,hkind⟩,_⟩ := h
    exact absurd (hnone kind hmem) hkind
  | ambiguous j j' kind hne hj hj' hkind hle =>
    exact ⟨fun _ => ⟨⟨kind,List.mem_of_getElem? hj,hkind⟩,
      fun i => not_isBest_of_equal hne hj hj' hle⟩,fun _ => rfl⟩

end Outcomes

section Order

variable {castKindOf : FunctionType τ → CastKind} {overloads overloads' : List (FunctionType τ)}
  {type : FunctionType τ}

/-- The overload that is better than all others, wherever it stands. -/
def IsBestOf (castKindOf : FunctionType τ → CastKind) (overloads : List (FunctionType τ))
    (type : FunctionType τ) : Prop :=
  castKindOf type ≠ .none ∧
    ∃ rest, overloads.Perm (type :: rest) ∧ ∀ other ∈ rest, castKindOf other < castKindOf type

theorem IsBestOf.perm (h : IsBestOf castKindOf overloads type) (hperm : overloads.Perm overloads') :
    IsBestOf castKindOf overloads' type := by
  obtain ⟨hkind,rest,hrest,hbest⟩ := h
  exact ⟨hkind,rest,hperm.symm.trans hrest,hbest⟩

theorem isBestOf_of_isBest {i : ℕ} (h : IsBest (overloads.map castKindOf) i) :
    ∃ type, overloads[i]? = some type ∧ IsBestOf castKindOf overloads type := by
  obtain ⟨kind,hi,hkind,hbest⟩ := h
  rw [List.getElem?_map,Option.map_eq_some_iff] at hi
  obtain ⟨type,hi,rfl⟩ := hi
  obtain ⟨hlt,htype⟩ := List.getElem?_eq_some_iff.1 hi
  subst htype
  refine ⟨overloads[i],hi,hkind,overloads.eraseIdx i,
    (List.getElem_cons_eraseIdx_perm hlt).symm,fun other hother => ?_⟩
  obtain ⟨j,hne,hj⟩ := List.mem_eraseIdx_iff_getElem?.1 hother
  refine hbest j _ hne ?_
  rw [List.getElem?_map,hj]
  rfl

theorem isBest_of_isBestOf (h : IsBestOf castKindOf overloads type) :
    ∃ i, overloads[i]? = some type ∧ IsBest (overloads.map castKindOf) i := by
  obtain ⟨hkind,rest,hperm,hbest⟩ := h
  obtain ⟨i,hi⟩ := List.mem_iff_getElem?.1 (hperm.mem_iff.2 (List.mem_cons_self ..))
  obtain ⟨hlt,htype⟩ := List.getElem?_eq_some_iff.1 hi
  have herase := (List.getElem_cons_eraseIdx_perm hlt).trans hperm
  rw [htype] at herase
  refine ⟨i,hi,castKindOf type,by rw [List.getElem?_map,hi]; rfl,hkind,fun j kind hne hj => ?_⟩
  rw [List.getElem?_map,Option.map_eq_some_iff] at hj
  obtain ⟨other,hj,rfl⟩ := hj
  exact hbest other (herase.cons_inv.mem_iff.1 (List.mem_eraseIdx_iff_getElem?.2 ⟨j,hne,hj⟩))

end Order

def chosen (castKindOf : FunctionType τ → CastKind) (typeOverload : FunctionTypeOverload τ) :
    Except OverloadError (Option (FunctionType τ) × CastKind) :=
  (chooseOverload castKindOf typeOverload).map fun choice =>
    (typeOverload.overloads[choice.1]?,choice.2)

/-- The order in which the overloads were declared does not matter. -/
theorem chosen_perm (castKindOf : FunctionType τ → CastKind)
    {typeOverload typeOverload' : FunctionTypeOverload τ}
    (hperm : typeOverload.overloads.Perm typeOverload'.overloads)
    (hlayout : typeOverload.hasLayout = typeOverload'.hasLayout) :
    chosen castKindOf typeOverload = chosen castKindOf typeOverload' := by
  cases hready : typeOverload.hasLayout with
  | false =>
    rw [hready] at hlayout
    unfold chosen chooseOverload
    rw [hready,← hlayout]
    rfl
  | true =>
    have houtcome := chooseOverload_outcome castKindOf hready
    have houtcome' := chooseOverload_outcome castKindOf (hlayout ▸ hready)
    have hkinds := hperm.map castKindOf
    unfold chosen
    cases hchoice : chooseOverload castKindOf typeOverload with
    | ok choice =>
      obtain ⟨i,kind⟩ := choice
      obtain ⟨hi,hbest⟩ := houtcome.ok_iff.1 hchoice
      obtain ⟨type,htype,hbestOf⟩ := isBestOf_of_isBest hbest
      obtain ⟨j,hj,hbest'⟩ := isBest_of_isBestOf (hbestOf.perm hperm)
      have hkind : kind = castKindOf type := by
        rw [List.getElem?_map,htype] at hi
        exact (Option.some.inj hi).symm
      have hchoice' := houtcome'.ok_iff.2
        ⟨show _ = some (castKindOf type) by rw [List.getElem?_map,hj]; rfl,hbest'⟩
      rw [hchoice']
      show Except.ok (typeOverload.overloads[i]?,kind) =
        Except.ok (typeOverload'.overloads[j]?,castKindOf type)
      rw [htype,hj,hkind]
    | error e =>
      rw [hchoice] at houtcome
      cases e with
      | layout => cases houtcome
      | noMatch n =>
        obtain ⟨hn,hnone⟩ := houtcome.noMatch_iff.1 rfl
        have hchoice' := houtcome'.noMatch_iff.2
          ⟨hn.trans hkinds.length_eq,fun kind hkind => hnone kind (hkinds.mem_iff.2 hkind)⟩
        rw [hchoice']
        rfl
      | ambiguous =>
        obtain ⟨⟨kind,hmem,hkind⟩,hnot⟩ := houtcome.ambiguous_iff.1 rfl
        have hchoice' := houtcome'.ambiguous_iff.2
          ⟨⟨kind,hkinds.mem_iff.1 hmem,hkind⟩,fun i hi => by
            obtain ⟨type,_,hbestOf⟩ := isBestOf_of_isBest hi
            obtain ⟨j,_,hj⟩ := isBest_of_isBestOf (hbestOf.perm hperm.symm)
            exact hnot j hj⟩
        rw [hchoice']
        rfl

inductive ArgForm (τ υ : Type) where
  | types (closure : Option (List (FormalArg τ) → Option (List (FormalArg τ))))
      (argTypes : List τ)
  | array (argValueArray : List υ)
  | list (argList : List υ)

variable {υ : Type} (Γ : Casts τ υ)

def Casts.castKindOf (form : ArgForm τ υ) (type : FunctionType τ) : CastKind :=
  match form with
  | .types closure argTypes => Γ.getArgCastKindOfTypes closure type argTypes
  | .array argValueArray => Γ.getArgCastKindOfArray type argValueArray
  | .list argList => Γ.getArgCastKindOfList type argList

/-- The cast kinds of the single arguments; a closure that does not fit casts nothing. -/
def Casts.argKinds (form : ArgForm τ υ) (type : FunctionType τ) : List CastKind :=
  match form with
  | .types none argTypes => argCastKinds Γ.typeKind type.isVarArg type.args argTypes
  | .types (some getArgTypeArray) argTypes =>
      match getArgTypeArray type.args with
      | none => [.none]
      | some args => argCastKinds Γ.typeKind type.isVarArg args argTypes
  | .array args | .list args => argCastKinds Γ.valueKind type.isVarArg type.args args

theorem Casts.castKindOf_eq (form : ArgForm τ υ) (type : FunctionType τ) :
    Γ.castKindOf form type = minimum (Γ.argKinds form type) := by
  cases form with
  | types closure argTypes =>
    cases closure with
    | none => exact argCastKind_eq type type.args argTypes
    | some getArgTypeArray =>
      unfold Casts.castKindOf Casts.getArgCastKindOfTypes Casts.argKinds
      cases hargs : getArgTypeArray type.args with
      | none =>
        simp only [hargs]
        exact (min_eq_left (none_le _)).symm
      | some args =>
        simp only [hargs]
        exact argCastKind_eq type args argTypes
  | array args => exact argCastKind_eq type type.args args
  | list args => exact argCastKind_eq type type.args args

def Casts.chooseOverloadOf (form : ArgForm τ υ) (typeOverload : FunctionTypeOverload τ) :
    Except OverloadError (ℕ × CastKind) :=
  match form with
  | .types closure argTypes => Γ.chooseOverloadOfTypes closure typeOverload argTypes
  | .array argValueArray => Γ.chooseOverloadOfArray typeOverload argValueArray
  | .list argList => Γ.chooseOverloadOfList typeOverload argList

theorem Casts.chooseOverloadOf_eq (form : ArgForm τ υ) (typeOverload : FunctionTypeOverload τ) :
    Γ.chooseOverloadOf form typeOverload = chooseOverload (Γ.castKindOf form) typeOverload := by
  cases form <;> rfl

theorem argCastKinds_ofType (isVarArg : Bool) (args : List (FormalArg τ)) (argTypes : List τ) :
    argCastKinds Γ.valueKind isVarArg args (argTypes.map Γ.ofType) =
      argCastKinds Γ.typeKind isVarArg args argTypes := by
  induction args generalizing argTypes with
  | nil => exact List.map_map
  | cons formalArg args ih =>
    cases argTypes with
    | nil =>
      show _ :: argCastKinds Γ.valueKind isVarArg args ([].map Γ.ofType) = _
      rw [ih]
      rfl
    | cons argType argTypes =>
      have hkind : Γ.valueKind formalArg (Γ.ofType argType) = Γ.typeKind formalArg argType := by
        unfold Casts.valueKind
        rw [Γ.ofType_not_empty]
        rfl
      show Γ.valueKind formalArg (Γ.ofType argType) :: _ = _
      rw [hkind,ih]
      rfl

theorem Casts.castKindOf_types (argTypes : List τ) :
    Γ.castKindOf (.types none argTypes) = Γ.castKindOf (.array (argTypes.map Γ.ofType)) := by
  funext type
  rw [Γ.castKindOf_eq,Γ.castKindOf_eq]
  exact congrArg minimum (argCastKinds_ofType Γ type.isVarArg type.args argTypes).symm

theorem chooseOverload_noLayout (castKindOf : FunctionType τ → CastKind)
    {typeOverload : FunctionTypeOverload τ} (h : typeOverload.hasLayout = false) :
    chooseOverload castKindOf typeOverload = .error .layout := by
  unfold chooseOverload
  rw [h]
  rfl

/-- The one overload with the greatest cast kind is chosen, whatever the order of the overloads;
values choose the same as an array and as a list, and types choose what values of no other kind
than their type do. -/
theorem chooseOverload_correct (Γ : Casts τ υ) (form : ArgForm τ υ)
    (typeOverload : FunctionTypeOverload τ) :
    (∀ i kind, Γ.chooseOverloadOf form typeOverload = .ok (i,kind) ↔
      typeOverload.hasLayout = true ∧
        (typeOverload.overloads.map (Γ.castKindOf form))[i]? = some kind ∧
        IsBest (typeOverload.overloads.map (Γ.castKindOf form)) i) ∧
    (∀ n, Γ.chooseOverloadOf form typeOverload = .error (.noMatch n) ↔
      typeOverload.hasLayout = true ∧ n = typeOverload.overloads.length ∧
        ∀ type ∈ typeOverload.overloads, Γ.castKindOf form type = .none) ∧
    (Γ.chooseOverloadOf form typeOverload = .error .ambiguous ↔
      typeOverload.hasLayout = true ∧
        (∃ type ∈ typeOverload.overloads, Γ.castKindOf form type ≠ .none) ∧
        ∀ i, ¬IsBest (typeOverload.overloads.map (Γ.castKindOf form)) i) ∧
    (∀ type, Γ.castKindOf form type = minimum (Γ.argKinds form type)) ∧
    (∀ typeOverload' : FunctionTypeOverload τ,
      typeOverload.overloads.Perm typeOverload'.overloads →
      typeOverload.hasLayout = typeOverload'.hasLayout →
      chosen (Γ.castKindOf form) typeOverload = chosen (Γ.castKindOf form) typeOverload') ∧
    (∀ args, Γ.chooseOverloadOf (.array args) typeOverload =
      Γ.chooseOverloadOf (.list args) typeOverload) ∧
    ∀ argTypes, Γ.chooseOverloadOf (.types none argTypes) typeOverload =
      Γ.chooseOverloadOf (.array (argTypes.map Γ.ofType)) typeOverload := by
  rw [Γ.chooseOverloadOf_eq]
  refine ⟨fun i kind => ?_,fun n => ?_,?_,Γ.castKindOf_eq form,
    fun typeOverload' hperm hlayout => chosen_perm _ hperm hlayout,fun args => rfl,
    fun argTypes => ?_⟩
  · cases hlayout : typeOverload.hasLayout with
    | false => simp [chooseOverload_noLayout _ hlayout]
    | true => simpa using (chooseOverload_outcome _ hlayout).ok_iff
  · cases hlayout : typeOverload.hasLayout with
    | false => simp [chooseOverload_noLayout _ hlayout]
    | true => simpa using (chooseOverload_outcome (Γ.castKindOf form) hlayout).noMatch_iff
  · cases hlayout : typeOverload.hasLayout with
    | false => simp [chooseOverload_noLayout _ hlayout]
    | true => simpa using (chooseOverload_outcome (Γ.castKindOf form) hlayout).ambiguous_iff
  · rw [Γ.chooseOverloadOf_eq,Γ.chooseOverloadOf_eq,Γ.castKindOf_types]

section Integers

/-- A constant or something that is known by its type only. -/
inductive IntArg where
  | empty
  | const (type : IntKind)
  | typed (type : IntKind)

/-- `Cast_Int` between integers: to a wider type, constants are cast for free. -/
def intCastKind (arg : IntArg) (type : IntKind) : CastKind :=
  match arg with
  | .empty => .none
  | .const srcType =>
      if srcType = type ∨ srcType.width < type.width then .identity else .implicit
  | .typed srcType => if srcType = type then .identity else .implicit

def intCasts : Casts IntKind IntArg where
  isEmpty arg := match arg with
    | .empty => true
    | .const _ | .typed _ => false
  ofType := .typed
  castKind := intCastKind
  ofType_not_empty _ := rfl

/-- `f(int8)` and `f(int32)`. -/
def intOverload : FunctionTypeOverload IntKind :=
  ⟨⟨[⟨.int8,false⟩],false⟩,[⟨[⟨.int32,false⟩],false⟩],true⟩

/-- With a constant of 8 bits the call is ambiguous, with its type it is not. -/
theorem values_and_types_differ :
    intCasts.chooseOverloadOf (.array [.const .int8]) intOverload = .error .ambiguous ∧
      intCasts.chooseOverloadOf (.types none [.int8]) intOverload = .ok (0,.identity) := by
  decide

theorem chooseOverload_correct_swapped :
    chosen (intCasts.castKindOf (.types none [.int8])) intOverload =
      chosen (intCasts.castKindOf (.types none [.int8]))
        ⟨⟨[⟨.int32,false⟩],false⟩,[⟨[⟨.int8,false⟩],false⟩],true⟩ :=
  (chooseOverload_correct intCasts (.types none [.int8]) intOverload).2.2.2.2.1
    ⟨⟨[⟨.int32,false⟩],false⟩,[⟨[⟨.int8,false⟩],false⟩],true⟩ (List.Perm.swap ..) rfl

end Integers

end Jancy.Ct.Overloads
