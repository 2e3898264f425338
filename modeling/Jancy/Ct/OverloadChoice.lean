import Jancy.Ct.PropertyType

/-! The choice of an overload: the loop over the cast kinds ends with the one overload that is better
than all others, if there is one. -/
namespace Jancy.Ct.Properties

/-- The one overload that is better than all others. -/
def IsBest (kinds : List CastKind) (i : ℕ) : Prop :=
  ∃ kind, kinds[i]? = some kind ∧ kind ≠ .none ∧
    ∀ (j : ℕ) (kind' : CastKind), j ≠ i → kinds[j]? = some kind' → kind' < kind

/-- What the loop over the overloads knows of those it has seen. -/
structure Chosen (seen : List CastKind) (best : CastKind) (bestOverload : Option ℕ)
    (isAmbiguous : Bool) : Prop where
  le : ∀ kind ∈ seen, kind ≤ best
  unset : bestOverload = none → best = .none
  set : ∀ i, bestOverload = some i → best ≠ .none ∧ seen[i]? = some best
  clear : isAmbiguous = false → ∀ i, bestOverload = some i →
    ∀ (j : ℕ) (kind : CastKind), j ≠ i → seen[j]? = some kind → kind < best
  ambiguous : isAmbiguous = true → best ≠ .none ∧
    ∃ i j : ℕ, i ≠ j ∧ seen[i]? = some best ∧ seen[j]? = some best

theorem none_lt {kind : CastKind} (h : kind ≠ .none) : CastKind.none < kind := by
  cases kind <;> first | exact absurd rfl h | decide

theorem not_lt_none {kind : CastKind} : ¬ kind < .none := by
  cases kind <;> decide

variable {kind kind' : CastKind}

theorem getElem?_single {j : ℕ} (h : [kind][j]? = some kind') :
    j = 0 ∧ kind' = kind := by
  cases j with
  | zero => exact ⟨rfl,(Option.some.inj h).symm⟩
  | succ j => cases h

variable {seen : List CastKind}

theorem getElem?_snoc {j : ℕ} (h : (seen ++ [kind])[j]? = some kind') :
    seen[j]? = some kind' ∨ j = seen.length ∧ kind' = kind := by
  obtain hlt | hle := Nat.lt_or_ge j seen.length
  · rw [List.getElem?_append_left hlt] at h
    exact .inl h
  · rw [List.getElem?_append_right hle] at h
    obtain ⟨hj,hkind⟩ := getElem?_single h
    exact .inr ⟨by omega,hkind⟩

theorem getElem?_snoc_of {j : ℕ} (h : seen[j]? = some kind') :
    (seen ++ [kind])[j]? = some kind' := by
  have hlt : j < seen.length := (List.getElem?_eq_some_iff.mp h).1
  rw [List.getElem?_append_left hlt, h]

theorem Chosen.step {best : CastKind} {bestOverload : Option ℕ} {isAmbiguous : Bool}
    (h : Chosen seen best bestOverload isAmbiguous) (kinds : List CastKind) :
    ∃ best', Chosen (seen ++ kinds) best'
      (chooseStep kinds seen.length best bestOverload isAmbiguous).1
      (chooseStep kinds seen.length best bestOverload isAmbiguous).2 := by
  induction kinds generalizing seen best bestOverload isAmbiguous with
  | nil => exact ⟨best,by simpa [chooseStep] using h⟩
  | cons kind kinds ih =>
    have hlength : (seen ++ [kind]).length = seen.length + 1 := by simp
    have hsnoc : seen ++ kind :: kinds = seen ++ [kind] ++ kinds := by simp
    rw [hsnoc]
    unfold chooseStep
    split
    · next hnone =>
      rw [← hlength]
      apply ih
      subst hnone
      refine ⟨?_,h.unset,fun i hi => ⟨(h.set i hi).1,getElem?_snoc_of (h.set i hi).2⟩,?_,?_⟩
      · intro k hk
        obtain hk | hk := List.mem_append.mp hk
        · exact h.le k hk
        · obtain rfl := List.mem_singleton.mp hk
          by_cases hb : best = .none
          · exact le_of_eq hb.symm
          · exact le_of_lt (none_lt hb)
      · intro hclear i hi j k hne hj
        obtain hj | ⟨-,rfl⟩ := getElem?_snoc hj
        · exact h.clear hclear i hi j k hne hj
        · exact none_lt (h.set i hi).1
      · intro hamb
        obtain ⟨hbest,i,j,hne,hi,hj⟩ := h.ambiguous hamb
        exact ⟨hbest,i,j,hne,getElem?_snoc_of hi,getElem?_snoc_of hj⟩
    next hsome =>
    split
    · next hlt =>
      rw [← hlength]
      apply ih
      refine ⟨?_,by simp,?_,?_,by simp⟩
      · intro k hk
        obtain hk | hk := List.mem_append.mp hk
        · exact (h.le k hk).trans (le_of_lt hlt)
        · exact le_of_eq (List.mem_singleton.mp hk)
      · rintro i ⟨⟩
        exact ⟨hsome,by simp⟩
      · rintro - i ⟨⟩ j k hne hj
        obtain hj | ⟨hj,-⟩ := getElem?_snoc hj
        · exact lt_of_le_of_lt (h.le k (List.mem_of_getElem? hj)) hlt
        · exact absurd hj hne
    · next hnlt =>
      have hle : kind ≤ best := not_lt.mp hnlt
      have hbest : best ≠ .none := by
        rintro rfl
        exact not_lt_none (lt_of_lt_of_le (none_lt hsome) hle)
      rw [← hlength]
      apply ih
      refine ⟨?_,h.unset,fun i hi => ⟨hbest,getElem?_snoc_of (h.set i hi).2⟩,?_,?_⟩
      · intro k hk
        obtain hk | hk := List.mem_append.mp hk
        · exact h.le k hk
        · rw [List.mem_singleton.mp hk]
          exact hle
      · intro hclear i hi j k hne hj
        obtain ⟨hold,hdiffer⟩ : isAmbiguous = false ∧ kind ≠ best := by simpa using hclear
        obtain hj | ⟨-,rfl⟩ := getElem?_snoc hj
        · exact h.clear hold i hi j k hne hj
        · exact lt_of_le_of_ne hle hdiffer
      · intro hamb
        refine ⟨hbest,?_⟩
        obtain hold | hequal : isAmbiguous = true ∨ kind = best := by simpa using hamb
        · obtain ⟨-,i,j,hne,hi,hj⟩ := h.ambiguous hold
          exact ⟨i,j,hne,getElem?_snoc_of hi,getElem?_snoc_of hj⟩
        · cases hoverload : bestOverload with
          | none => exact absurd (h.unset hoverload) hbest
          | some i =>
            have hi := (h.set i hoverload).2
            refine ⟨i,seen.length,?_,getElem?_snoc_of hi,by simp [hequal]⟩
            have hlt : i < seen.length := (List.getElem?_eq_some_iff.mp hi).1
            omega

theorem Chosen.start (kind : CastKind) :
    Chosen [kind] kind (if kind = .none then none else some 0) false := by
  refine ⟨by simp,?_,?_,?_,by simp⟩
  · intro h
    by_contra hne
    rw [if_neg hne] at h
    cases h
  · intro i hi
    split at hi
    · cases hi
    · next hne =>
      obtain rfl := Option.some.inj hi
      exact ⟨hne,rfl⟩
  · intro _ i hi j k hne hj
    split at hi
    · cases hi
    · obtain rfl := Option.some.inj hi
      obtain ⟨hzero,-⟩ := getElem?_single hj
      exact absurd hzero hne

theorem chooseBest_eq_some_iff {kinds : List CastKind} {i : ℕ} :
    chooseBest kinds = some i ↔ IsBest kinds i := by
  cases kinds with
  | nil => simp [chooseBest, IsBest]
  | cons kind kinds =>
    obtain ⟨best,hchosen⟩ := (Chosen.start kind).step kinds
    have hone : ([kind] : List CastKind).length = 1 := rfl
    rw [hone, List.singleton_append] at hchosen
    unfold chooseBest
    generalize hstep : chooseStep kinds 1 kind (if kind = .none then none else some 0) false = r
      at hchosen
    obtain ⟨bestOverload,isAmbiguous⟩ := r
    dsimp only
    rw [hstep]
    cases isAmbiguous with
    | false =>
      dsimp only at hchosen ⊢
      constructor
      · intro h
        exact ⟨best,(hchosen.set i h).2,(hchosen.set i h).1,
          fun j k hne hj => hchosen.clear rfl i h j k hne hj⟩
      · rintro ⟨k,hi,hk,hbetter⟩
        cases hoverload : bestOverload with
        | none =>
          have hle := hchosen.le k (List.mem_of_getElem? hi)
          rw [hchosen.unset hoverload] at hle
          exact absurd (lt_of_lt_of_le (none_lt hk) hle) not_lt_none
        | some j =>
          by_contra hne
          have hj := (hchosen.set j hoverload).2
          have hlt := hbetter j best (fun heq => hne (by rw [heq])) hj
          exact absurd (hchosen.le k (List.mem_of_getElem? hi)) (not_le.mpr hlt)
    | true =>
      dsimp only at hchosen ⊢
      constructor
      · intro h
        cases h
      · rintro ⟨k,hi,hk,hbetter⟩
        obtain ⟨-,j,j',hne,hj,hj'⟩ := hchosen.ambiguous rfl
        have hle := hchosen.le k (List.mem_of_getElem? hi)
        by_cases heq : j = i
        · subst heq
          have hlt := hbetter j' best (Ne.symm hne) hj'
          exact absurd hle (not_le.mpr hlt)
        · have hlt := hbetter j best heq hj
          exact absurd hle (not_le.mpr hlt)

end Jancy.Ct.Properties

/-! The cast kind of an argument list, and the choice of an overload for it: for types, for values,
and for a list of values. -/
namespace Jancy.Ct.Overloads

open Properties (CastKind)

variable {τ υ α : Type}

/-- What the cast operators give to the choice of overloads: types `τ` and values `υ`. -/
structure Casts (τ υ : Type) where
  isEmpty : υ → Bool
  /-- `Value(type)` -/
  ofType : τ → υ
  castKind : υ → τ → CastKind
  ofType_not_empty : ∀ type, isEmpty (ofType type) = false

structure FormalArg (τ : Type) where
  type : τ
  hasInitializer : Bool

structure FunctionType (τ : Type) where
  args : List (FormalArg τ)
  isVarArg : Bool

/-- The `while` loop: formal arguments after the actual ones must have initializers. -/
def skipInitialized (args : List (FormalArg τ)) (actualArgCount : ℕ) : ℕ → Option ℕ
  | 0 => some 0
  | formalArgCount + 1 =>
      if actualArgCount < formalArgCount + 1 then
        if (args[formalArgCount]?).any (·.hasInitializer) then
          skipInitialized args actualArgCount formalArgCount
        else none
      else some (formalArgCount + 1)

/-- The `for` loop: an argument that cannot be cast ends it. -/
def worstCastKind (kindOf : FormalArg τ → α → CastKind) (worst : CastKind) :
    List (FormalArg τ × α) → CastKind
  | [] => worst
  | (formalArg,actualArg) :: rest =>
      let castKind := kindOf formalArg actualArg
      if castKind = .none then .none
      else worstCastKind kindOf (if castKind < worst then castKind else worst) rest

/-- What the three forms have in common. -/
def argCastKind (kindOf : FormalArg τ → α → CastKind) (functionType : FunctionType τ)
    (args : List (FormalArg τ)) (actualArgs : List α) (isFunctionPtrCast : Bool) : CastKind :=
  if actualArgs.length > args.length then
    let worst :=
      if functionType.isVarArg then .identity
      else if isFunctionPtrCast then .implicitLossyFunctionCall else .none
    worstCastKind kindOf worst (args.zip actualArgs)
  else
    match skipInitialized args actualArgs.length args.length with
    | none => .none
    | some formalArgCount =>
        worstCastKind kindOf .identity ((args.take formalArgCount).zip actualArgs)

namespace Casts

variable (Γ : Casts τ υ)

def typeKind (formalArg : FormalArg τ) (actualArgType : τ) : CastKind :=
  Γ.castKind (Γ.ofType actualArgType) formalArg.type

def valueKind (formalArg : FormalArg τ) (arg : υ) : CastKind :=
  if !Γ.isEmpty arg then Γ.castKind arg formalArg.type
  else if formalArg.hasInitializer then .identity else .none

/-- A closure replaces the formal arguments, or fails. -/
def getArgCastKindOfTypes (closure : Option (List (FormalArg τ) → Option (List (FormalArg τ))))
    (functionType : FunctionType τ) (actualArgs : List τ) (isFunctionPtrCast : Bool := false) :
    CastKind :=
  match closure with
  | none => argCastKind Γ.typeKind functionType functionType.args actualArgs isFunctionPtrCast
  | some getArgTypeArray =>
      match getArgTypeArray functionType.args with
      | none => .none
      | some args => argCastKind Γ.typeKind functionType args actualArgs isFunctionPtrCast

def getArgCastKindOfArray (functionType : FunctionType τ) (argValueArray : List υ)
    (isFunctionPtrCast : Bool := false) : CastKind :=
  argCastKind Γ.valueKind functionType functionType.args argValueArray isFunctionPtrCast

def getArgCastKindOfList (functionType : FunctionType τ) (argList : List υ)
    (isFunctionPtrCast : Bool := false) : CastKind :=
  argCastKind Γ.valueKind functionType functionType.args argList isFunctionPtrCast

end Casts

/-- `m_type` is not null. -/
structure FunctionTypeOverload (τ : Type) where
  type : FunctionType τ
  overloadArray : List (FunctionType τ)
  /-- what `ensureLayout` returns -/
  hasLayout : Bool

def FunctionTypeOverload.overloads (typeOverload : FunctionTypeOverload τ) :
    List (FunctionType τ) := typeOverload.type :: typeOverload.overloadArray

inductive OverloadError where
  | layout
  | noMatch (overloadCount : ℕ)
  | ambiguous
  deriving DecidableEq

def OverloadError.text : OverloadError → Option String
  | .layout => none
  | .noMatch _ => some "none of the %d overloads accept the specified argument list"
  | .ambiguous => some "ambiguous call to overloaded function"

def chooseOverload (castKindOf : FunctionType τ → CastKind)
    (typeOverload : FunctionTypeOverload τ) : Except OverloadError (ℕ × CastKind) :=
  if !typeOverload.hasLayout then .error .layout
  else
    let castKind := castKindOf typeOverload.type
    let castKinds := typeOverload.overloadArray.map castKindOf
    match Properties.chooseStep castKinds 1 castKind (if castKind = .none then none else some 0)
        false with
    | (none,_) => .error (.noMatch (castKinds.length + 1))
    | (some _,true) => .error .ambiguous
    | (some bestOverload,false) =>
        .ok (bestOverload,((castKind :: castKinds)[bestOverload]?).getD .none)

namespace Casts

variable (Γ : Casts τ υ)

def chooseOverloadOfTypes
    (closure : Option (List (FormalArg τ) → Option (List (FormalArg τ))))
    (typeOverload : FunctionTypeOverload τ) (argTypes : List τ) :
    Except OverloadError (ℕ × CastKind) :=
  chooseOverload (fun type => Γ.getArgCastKindOfTypes closure type argTypes) typeOverload

def chooseOverloadOfArray (typeOverload : FunctionTypeOverload τ) (argValueArray : List υ) :
    Except OverloadError (ℕ × CastKind) :=
  chooseOverload (fun type => Γ.getArgCastKindOfArray type argValueArray) typeOverload

def chooseOverloadOfList (typeOverload : FunctionTypeOverload τ) (argList : List υ) :
    Except OverloadError (ℕ × CastKind) :=
  chooseOverload (fun type => Γ.getArgCastKindOfList type argList) typeOverload

end Casts

/-- The cast kinds of the arguments one by one: given ones, omitted ones and superfluous ones. -/
def argCastKinds (kindOf : FormalArg τ → α → CastKind) (isVarArg : Bool) :
    List (FormalArg τ) → List α → List CastKind
  | [],actualArgs => actualArgs.map fun _ => if isVarArg then .identity else .none
  | formalArg :: args,[] =>
      (if formalArg.hasInitializer then .identity else .none) ::
        argCastKinds kindOf isVarArg args []
  | formalArg :: args,actualArg :: actualArgs =>
      kindOf formalArg actualArg :: argCastKinds kindOf isVarArg args actualArgs

def minimum (castKinds : List CastKind) : CastKind := castKinds.foldr min .identity

end Jancy.Ct.Overloads
