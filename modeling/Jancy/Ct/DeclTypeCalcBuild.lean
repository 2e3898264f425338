import Jancy.Ct.DeclTypeCalcRead

/-! What every function of the calculation does to its state: it adds type constructors that read the
type so far, take the suffixes from the last one on, and take each modifier at most once. -/
namespace Jancy.Ct.DeclTypeCalc

/-- How many constructors take the modifier. -/
def takenBy (modifier : TypeModifier) (ctors : List Ctor) : ℕ :=
  ctors.countP (modifier ∈ ·.modifiers)

/-- The constructor takes only modifiers of its mask, and that of integers takes `unsigned`. -/
structure Ctor.Masked (ctor : Ctor) : Prop where
  mask : ctor.modifiers ⊆ ctor.kind.mask
  unsigned : ∀ type, ctor.kind = .integer type → .unsigned ∈ ctor.modifiers

/-- The second state has these constructors more than the first one, over the suffixes that it has
less. -/
structure Adds (s s' : State) (ctors : List Ctor) : Prop where
  added : s'.ctors = s.ctors ++ ctors
  taken : s.suffixes = ctors.filterMap (·.suffix) ++ s'.suffixes
  masked : ∀ ctor ∈ ctors, ctor.Masked
  reads : Reads CodeInteger s.type ctors s'.type

/-- The same, and each modifier is taken once or not yet. -/
structure Builds (s s' : State) (ctors : List Ctor) : Prop extends Adds s s' ctors where
  counted : ∀ modifier, takenBy modifier ctors + (if modifier ∈ s'.modifiers then 1 else 0) =
    if modifier ∈ s.modifiers then 1 else 0

/-- The calculation goes from the first state to the second one with some constructors. -/
def BuildsTo (s s' : State) : Prop := ∃ ctors, Builds s s' ctors

theorem Adds.refl (s : State) : Adds s s [] := ⟨by simp,by simp,by simp,rfl⟩

theorem Adds.trans {s s' s'' : State} {ctors ctors' : List Ctor} (h : Adds s s' ctors)
    (h' : Adds s' s'' ctors') : Adds s s'' (ctors ++ ctors') where
  added := by rw [h'.added,h.added,List.append_assoc]
  taken := by rw [h.taken,h'.taken,List.filterMap_append,List.append_assoc]
  masked ctor hctor := (List.mem_append.1 hctor).elim (h.masked ctor) (h'.masked ctor)
  reads := h.reads.append h'.reads

theorem Builds.refl (s : State) : Builds s s [] := ⟨.refl s,by simp [takenBy]⟩

theorem Builds.trans {s s' s'' : State} {ctors ctors' : List Ctor} (h : Builds s s' ctors)
    (h' : Builds s' s'' ctors') : Builds s s'' (ctors ++ ctors') where
  toAdds := h.toAdds.trans h'.toAdds
  counted modifier := by
    have hfirst := h.counted modifier
    have hsecond := h'.counted modifier
    unfold takenBy at hfirst hsecond ⊢
    rw [List.countP_append]
    omega

theorem BuildsTo.refl (s : State) : BuildsTo s s := ⟨[],.refl s⟩

theorem BuildsTo.trans {s s' s'' : State} (h : BuildsTo s s') (h' : BuildsTo s' s'') :
    BuildsTo s s'' := by
  obtain ⟨ctors,h⟩ := h
  obtain ⟨ctors',h'⟩ := h'
  exact ⟨ctors ++ ctors',h.trans h'⟩

theorem ok_of_bind {ε α β : Type} {x : Except ε α} {f : α → Except ε β} {b : β}
    (h : x >>= f = .ok b) : ∃ a, x = .ok a ∧ f a = .ok b := by
  cases x with
  | error e => cases h
  | ok a => exact ⟨a,rfl,h⟩

/-! ## Suffixes that are left

From the modifiers and the suffixes alone, and whether the type is one of functions. -/

def Suffix.isArray : Suffix → Bool
  | .array _ => true
  | .function _ => false

def functionRest (suffixes : List Suffix) : List Suffix := (suffixes.dropWhile (·.isArray)).tail

def propertyRest (modifiers : Modifiers) (suffixes : List Suffix) : List Suffix :=
  if .indexed ∈ modifiers then functionRest suffixes else suffixes.dropWhile (·.isArray)

def multicastRest (type : Ty) (suffixes : List Suffix) : List Suffix :=
  if type = .functionPtr ∨ type = .function then suffixes else functionRest suffixes

namespace State

variable {s s' : State} {env : Env}

/-- Only `unsigned` and `array` are taken. -/
def KeepsOthers (s s' : State) : Prop :=
  ∀ modifier, modifier ≠ .unsigned → modifier ≠ .array →
    (modifier ∈ s'.modifiers ↔ modifier ∈ s.modifiers)

theorem KeepsOthers.trans {s'' : State} (h : KeepsOthers s s') (h' : KeepsOthers s' s'') :
    KeepsOthers s s'' := fun modifier hunsigned harray =>
  (h' modifier hunsigned harray).trans (h modifier hunsigned harray)

theorem builds_build (s : State) (kind : CtorKind) (suffix : Option Suffix) (mask : Modifiers)
    (rest : List Suffix) {type : Ty} (hsuffix : s.suffixes = suffix.toList ++ rest)
    (hmask : mask ⊆ kind.mask)
    (hunsigned : ∀ type, kind = .integer type → .unsigned ∈ s.modifiers ∩ mask)
    (hmakes : Ctor.Makes CodeInteger ⟨kind,suffix,s.modifiers ∩ mask⟩ s.type type) :
    Builds s ({ s with suffixes := rest }.build kind suffix mask type)
      [⟨kind,suffix,s.modifiers ∩ mask⟩] where
  added := rfl
  taken := by
    rw [hsuffix]
    cases suffix <;> rfl
  counted modifier := by
    by_cases hmod : modifier ∈ s.modifiers <;> by_cases hin : modifier ∈ mask <;>
      simp [takenBy,build,hmod,hin]
  masked ctor hctor := by
    obtain rfl := List.mem_singleton.1 hctor
    exact ⟨Finset.inter_subset_right.trans hmask,hunsigned⟩
  reads := ⟨type,hmakes,rfl⟩

theorem buildsTo_build (s : State) (kind : CtorKind) (mask : Modifiers) {type : Ty}
    (hmask : mask ⊆ kind.mask) (hkind : ∀ type, kind ≠ .integer type)
    (hmakes : ∀ modifiers, Ctor.Makes CodeInteger ⟨kind,none,modifiers⟩ s.type type) :
    BuildsTo s (s.build kind none mask type) :=
  ⟨_,builds_build s kind none mask s.suffixes rfl hmask (fun type h => absurd h (hkind type))
    (hmakes _)⟩

theorem not_mem_of_codeInteger {type integerType : Ty} (h : CodeInteger type integerType) :
    ∀ other ∈ [Ty.void,.class,.function,.functionPtr,.property,.autoSizeArray,.abstractData],
      type ≠ other ∧ integerType ≠ other := by
  unfold CodeInteger State.integerType at h
  split at h <;> simp_all
  all_goals subst h; simp

theorem getIntegerType_ok (h : s.getIntegerType = .ok s') (hunsigned : .unsigned ∈ s.modifiers) :
    BuildsTo s s' ∧ CodeInteger s.type s'.type ∧ s'.suffixes = s.suffixes ∧ KeepsOthers s s' := by
  unfold getIntegerType at h
  split at h
  · cases h
  · rename_i type hint
    obtain rfl := Except.ok.inj h
    have hinteger := builds_build s (.integer type) none {.unsigned} s.suffixes rfl
      (Finset.Subset.refl _) (fun _ _ => by simpa using hunsigned) ⟨hint,rfl⟩
    refine ⟨⟨_,hinteger⟩,hint,rfl,fun modifier hne _ => ?_⟩
    simp [build,hne]

theorem checkInteger_ok (h : s.checkInteger = .ok s') :
    BuildsTo s s' ∧ s'.suffixes = s.suffixes ∧ KeepsOthers s s' ∧ s'.type ≠ .abstractData ∧
      ∀ other ∈ [Ty.void,.class,.function,.functionPtr,.property,.autoSizeArray],
        (s'.type = other ↔ s.type = other) := by
  unfold checkInteger at h
  split at h
  case isTrue hunsigned =>
    obtain ⟨hbuilds,hint,hsuffixes,hkeeps⟩ := getIntegerType_ok h hunsigned
    have hne := not_mem_of_codeInteger hint
    refine ⟨hbuilds,hsuffixes,hkeeps,(hne _ (by simp)).2,fun other hother => ?_⟩
    have hother := hne other (by simp at hother ⊢; tauto)
    simp [hother.1,hother.2]
  case isFalse =>
    split at h
    · cases h
    · rename_i hany
      obtain rfl := Except.ok.inj h
      exact ⟨.refl s,rfl,fun _ _ _ => Iff.rfl,hany,fun _ _ => Iff.rfl⟩

theorem isNoElement_eq_false {type : Ty} : isNoElement type = false ↔
    ∀ other ∈ [Ty.class,.function,.property,.autoSizeArray], type ≠ other := by
  simp [isNoElement]

theorem checkInteger_isElement (h : s.checkInteger = .ok s') (helement : isNoElement s.type = false) :
    s'.type.IsElement := by
  obtain ⟨-,-,-,hany,hsame⟩ := checkInteger_ok h
  refine ⟨isNoElement_eq_false.2 fun other hother heq => ?_,hany⟩
  have hsame := hsame other (by simp at hother ⊢; tauto)
  exact isNoElement_eq_false.1 helement other hother (hsame.1 heq)

theorem checkInteger_suffixes {suffixes : List Suffix}
    (h : { s with suffixes }.checkInteger = .ok s') :
    ∃ mid, s.checkInteger = .ok mid ∧ s' = { mid with suffixes } := by
  unfold checkInteger getIntegerType at h ⊢
  split at h
  case isTrue hunsigned =>
    split at h
    · cases h
    · rename_i type hint
      obtain rfl := Except.ok.inj h
      exact ⟨s.build (.integer type) none {.unsigned} type,by simp_all,rfl⟩
  case isFalse hunsigned =>
    split at h
    · cases h
    · rename_i hany
      obtain rfl := Except.ok.inj h
      exact ⟨s,by simp_all,rfl⟩

theorem getArrayType_ok (h : s.getArrayType = .ok s') :
    ∃ suffix, s.suffixes = .array suffix :: s'.suffixes ∧ BuildsTo s s' ∧ KeepsOthers s s' ∧
      (s'.type = .data ∨ s'.type = .autoSizeArray) := by
  unfold getArrayType at h
  split at h
  case h_2 => cases h
  case h_1 suffix suffixes hsuffixes =>
    split at h
    · cases h
    rename_i helement
    simp only [Bool.or_eq_true,decide_eq_true_eq,not_or,Bool.not_eq_true] at helement
    obtain ⟨next,hnext,h⟩ := ok_of_bind h
    obtain ⟨mid,hmid,rfl⟩ := checkInteger_suffixes hnext
    obtain rfl := Except.ok.inj h
    obtain ⟨hbuilds,hrest,hkeeps,-,hsame⟩ := checkInteger_ok hmid
    have hvoid : mid.type ≠ .void := mt (hsame .void (by simp)).1 helement.2
    have harray := builds_build mid (.array _) (some (.array suffix)) {.array} suffixes
      (by rw [hrest,hsuffixes]; rfl) (Finset.Subset.refl _) nofun
      ⟨checkInteger_isElement hmid helement.1,hvoid,rfl,rfl⟩
    refine ⟨suffix,hsuffixes,hbuilds.trans ⟨_,harray⟩,hkeeps.trans fun modifier _ hne => ?_,?_⟩
    · simp [build,hne]
    · simp only [build]
      split <;> simp

theorem KeepsOthers.refl (s : State) : KeepsOthers s s := fun _ _ _ => Iff.rfl

theorem getArrayTypes_ok (n : ℕ) (hn : s.suffixes.length ≤ n) (h : s.getArrayTypes n = .ok s') :
    BuildsTo s s' ∧ KeepsOthers s s' ∧ s'.suffixes = s.suffixes.dropWhile (·.isArray) := by
  induction n generalizing s with
  | zero =>
    obtain rfl := Except.ok.inj h
    have hnil : s.suffixes = [] := List.length_eq_zero_iff.1 (Nat.le_zero.1 hn)
    exact ⟨.refl s,.refl s,by rw [hnil]; rfl⟩
  | succ n ih =>
    unfold getArrayTypes at h
    split at h
    case h_1 suffix suffixes hsuffixes =>
      obtain ⟨mid,hmid,h⟩ := ok_of_bind h
      obtain ⟨suffix,hfirst,hbuilds,hkeeps,-⟩ := getArrayType_ok hmid
      have hlength : mid.suffixes.length ≤ n := by
        rw [hfirst,List.length_cons] at hn
        omega
      obtain ⟨hbuilds',hkeeps',hrest⟩ := ih hlength h
      exact ⟨hbuilds.trans hbuilds',hkeeps.trans hkeeps',by rw [hrest,hfirst]; rfl⟩
    case h_2 hother =>
      obtain rfl := Except.ok.inj h
      refine ⟨.refl s,.refl s,?_⟩
      cases hsuffixes : s.suffixes with
      | nil => rfl
      | cons suffix suffixes =>
        cases suffix with
        | array suffix => exact absurd hsuffixes (hother suffix suffixes)
        | function suffix => rfl

theorem prepareReturnType_ok (h : s.prepareReturnType = .ok s') :
    BuildsTo s s' ∧ KeepsOthers s s' ∧ s'.suffixes = s.suffixes.dropWhile (·.isArray) ∧
      s'.type.IsElement := by
  obtain ⟨mid,hmid,h⟩ := ok_of_bind h
  obtain ⟨hbuilds,hkeeps,hrest⟩ := getArrayTypes_ok _ le_rfl hmid
  split at h
  · cases h
  · rename_i helement
    obtain ⟨hbuilds',hrest',hkeeps',-⟩ := checkInteger_ok h
    exact ⟨hbuilds.trans hbuilds',hkeeps.trans hkeeps',hrest'.trans hrest,
      checkInteger_isElement h (by simpa using helement)⟩

theorem getFunctionType_ok {acceptGetter : Bool} (h : s.getFunctionType env acceptGetter = .ok s') :
    BuildsTo s s' ∧ s'.type = .function ∧ s'.suffixes = functionRest s.suffixes ∧
      s.suffixes.dropWhile (·.isArray) ≠ [] := by
  obtain ⟨mid,hmid,h⟩ := ok_of_bind h
  obtain ⟨hbuilds,-,hrest,helement⟩ := prepareReturnType_ok hmid
  split at h
  case h_2 => cases h
  case h_1 suffix suffixes hsuffixes =>
    repeat
      split at h
      · cases h
    obtain rfl := Except.ok.inj h
    have hfunction := builds_build mid .function (some (.function suffix)) maskFunction suffixes
      hsuffixes (Finset.Subset.refl _) nofun
      ⟨helement,rfl⟩
    refine ⟨hbuilds.trans ⟨_,hfunction⟩,rfl,?_,by simp [← hrest,hsuffixes]⟩
    rw [functionRest,← hrest,hsuffixes]
    rfl

theorem getPropertyType_ok (h : s.getPropertyType env = .ok s') :
    BuildsTo s s' ∧ s'.type = .property ∧ s'.suffixes = propertyRest s.modifiers s.suffixes := by
  obtain ⟨mid,hmid,h⟩ := ok_of_bind h
  obtain ⟨hbuilds,hkeeps,hrest,helement⟩ := prepareReturnType_ok hmid
  have hindexed := hkeeps .indexed (by simp) (by simp)
  split at h
  · cases h
  rename_i hvoid
  split at h
  case isTrue hnot =>
    obtain rfl := Except.ok.inj h
    have hproperty := buildsTo_build mid .property maskProperty
      (Finset.Subset.refl _) nofun fun _ => ⟨helement,hvoid,rfl⟩
    refine ⟨hbuilds.trans hproperty,rfl,?_⟩
    rw [propertyRest,if_neg (mt hindexed.2 hnot)]
    exact hrest
  case isFalse hnot =>
    split at h
    case h_2 => cases h
    case h_1 suffix suffixes hsuffixes =>
      repeat
        split at h
        · cases h
      obtain rfl := Except.ok.inj h
      have hproperty := builds_build mid .property (some (.function suffix)) maskProperty suffixes
        hsuffixes (Finset.Subset.refl _) nofun
        ⟨helement,hvoid,rfl⟩
      refine ⟨hbuilds.trans ⟨_,hproperty⟩,rfl,?_⟩
      rw [propertyRest,if_pos (hindexed.1 (not_not.1 hnot)),functionRest,← hrest,hsuffixes]
      rfl

theorem getBindableDataType_ok (h : s.getBindableDataType = .ok s') :
    BuildsTo s s' ∧ s'.suffixes = s.suffixes.dropWhile (·.isArray) := by
  obtain ⟨mid,hmid,h⟩ := ok_of_bind h
  obtain ⟨hbuilds,-,hrest,helement⟩ := prepareReturnType_ok hmid
  split at h
  · cases h
  rename_i hvoid
  split at h
  · cases h
  obtain rfl := Except.ok.inj h
  have hproperty := buildsTo_build mid .bindableData maskProperty
    (Finset.Subset.refl _) nofun fun _ => ⟨helement,hvoid,rfl⟩
  exact ⟨hbuilds.trans hproperty,hrest⟩

theorem getFunctionPtrType_ok (hfunction : s.type = .function) : BuildsTo s s.getFunctionPtrType :=
  buildsTo_build s .functionPtr maskFunctionPtr (Finset.Subset.refl _) nofun
    fun _ => ⟨hfunction,rfl⟩

theorem getMulticastPtrType_ok (h : s.getMulticastPtrType env = .ok s') :
    BuildsTo s s' ∧ s'.type = .functionPtr ∧ s'.suffixes = multicastRest s.type s.suffixes := by
  unfold getMulticastPtrType at h
  split at h
  case h_1 htype =>
    obtain rfl := Except.ok.inj h
    exact ⟨.refl s,htype,by simp [multicastRest,htype]⟩
  case h_2 htype =>
    obtain rfl := Except.ok.inj h
    exact ⟨getFunctionPtrType_ok htype,rfl,by simp [multicastRest,htype]; rfl⟩
  case h_3 hptr hfunction =>
    obtain ⟨mid,hmid,h⟩ := ok_of_bind h
    obtain rfl := Except.ok.inj h
    obtain ⟨hbuilds,htype,hrest,-⟩ := getFunctionType_ok hmid
    refine ⟨hbuilds.trans (getFunctionPtrType_ok htype),rfl,?_⟩
    rw [multicastRest,if_neg (by tauto)]
    exact hrest

theorem getMulticastType_ok (h : s.getMulticastType env = .ok s') :
    BuildsTo s s' ∧ s'.type = .class ∧ s'.suffixes = multicastRest s.type s.suffixes := by
  obtain ⟨mid,hmid,h⟩ := ok_of_bind h
  obtain rfl := Except.ok.inj h
  obtain ⟨hbuilds,htype,hrest⟩ := getMulticastPtrType_ok hmid
  have hmulticast := buildsTo_build mid .multicast {.multicast}
    (Finset.Subset.refl _) nofun fun _ => ⟨htype,rfl⟩
  exact ⟨hbuilds.trans hmulticast,rfl,hrest⟩

end State
end Jancy.Ct.DeclTypeCalc
