import Jancy.Ct.DeclTypeCalc

/-! Reading a declarator inside out: what each type constructor can be applied to and what it makes,
and that every function of the calculation takes suffixes and modifiers with such constructors. -/
namespace Jancy.Ct.DeclTypeCalc

/-- The types that constructors other than those of integers make. -/
def Ty.isBuilt (type : Ty) : Bool :=
  type ∈ [Ty.data,.autoSizeArray,.class,.function,.functionPtr,.property]

/-- Types that can be elements of arrays, and return types. -/
def Ty.IsElement (type : Ty) : Prop := State.isNoElement type = false ∧ type ≠ .abstractData

/-- The constructor makes the second type of the first one; `integers` says what those of integers
make. -/
def Ctor.Makes (integers : Ty → Ty → Prop) (ctor : Ctor) (type made : Ty) : Prop :=
  match ctor.kind,ctor.suffix with
  | .integer integerType, none => integers type integerType ∧ made = integerType
  | .array isAutoSize, some (.array suffix) =>
      type.IsElement ∧ type ≠ .void ∧
        isAutoSize = (!suffix.hasInitializer && suffix.elementCount.isNone) ∧
        made = if isAutoSize then .autoSizeArray else .data
  | .function, some (.function _) => type.IsElement ∧ made = .function
  | .property, none => type.IsElement ∧ type ≠ .void ∧ made = .property
  | .property, some (.function _) => type.IsElement ∧ type ≠ .void ∧ made = .property
  | .bindableData, none => type.IsElement ∧ type ≠ .void ∧ made = .property
  | .multicast, none => type = .functionPtr ∧ made = .class
  | .reactor, none => made = .class
  | .dataPtr, none => type ∉ [Ty.class,.function,.property] ∧ made = .data
  | .classPtr, none => type = .class ∧ made = .data
  | .functionPtr, none => type = .function ∧ made = .functionPtr
  | .propertyPtr, none => type = .property ∧ made = .data
  | .importPtr, none => (∃ actualType, type = .importTypeName actualType) ∧ made = .data
  | .templatePtr, none => type = .templateArg ∧ made = .data
  | .getterOfFunction, some (.function _) => type = .function ∧ made = .function
  | .declFlags, none => made = type
  | _, _ => False

/-- The constructors make the second type of the first one, from the innermost one outwards. -/
def Reads (integers : Ty → Ty → Prop) : Ty → List Ctor → Ty → Prop
  | type, [], made => made = type
  | type, ctor :: ctors, made => ∃ mid, ctor.Makes integers type mid ∧ Reads integers mid ctors made

theorem Reads.append {integers : Ty → Ty → Prop} {type mid made : Ty} {ctors ctors' : List Ctor}
    (h : Reads integers type ctors mid) (h' : Reads integers mid ctors' made) :
    Reads integers type (ctors ++ ctors') made := by
  induction ctors generalizing type with
  | nil =>
    have hmid : mid = type := h
    rwa [← hmid]
  | cons ctor ctors ih =>
    obtain ⟨next,hmakes,hreads⟩ := h
    exact ⟨next,hmakes,ih hreads⟩

/-- What `getIntegerType` makes. -/
def CodeInteger (type integerType : Ty) : Prop := State.integerType type = some integerType

def Ty.intKind : Ty → Option IntKind
  | .integer kind => some kind
  | .typedefShadow actualType => actualType.intKind
  | .importTypeName actualType => actualType.intKind
  | _ => none

/-- The kind that `calcIntModType` resolves a modified import to, where it reports no error. -/
def Ty.modKind : Ty → Option IntKind
  | .integer kind => some kind.unsigned
  | .typedefShadow (.integer kind) => some kind
  | .importTypeName actualType => actualType.modKind
  | _ => none

/-- The second type is the unsigned counterpart of the first one, if that is an integer. Of an import
it is a modified import, which is resolved to the counterpart or rejected. -/
def UnsignedInteger (type integerType : Ty) : Prop :=
  ∀ kind ∈ type.intKind, integerType = .integer kind.unsigned ∨
    ∃ actualType, integerType = .importIntMod actualType ∧
      ∀ made ∈ actualType.modKind, made = kind.unsigned

def Ty.UnsignedSafe : Ty → Prop
  | .typedefShadow (.integer kind) => kind.unsigned = kind
  | .importTypeName actualType => actualType.UnsignedSafe
  | _ => True

theorem Ty.modKind_iff (type : Ty) :
    (∀ kind ∈ type.intKind, ∀ made ∈ type.modKind, made = kind.unsigned) ↔ type.UnsignedSafe := by
  induction type with
  | importTypeName actualType ih => exact ih
  | typedefShadow actualType =>
    cases actualType <;> simp [intKind,modKind,UnsignedSafe,eq_comm]
  | _ => simp [intKind,modKind,UnsignedSafe]

theorem unsignedInteger_iff {type integerType : Ty} (h : CodeInteger type integerType) :
    UnsignedInteger type integerType ↔ type.UnsignedSafe := by
  unfold CodeInteger at h
  unfold UnsignedInteger
  cases type with
  | integer kind =>
    obtain rfl : Ty.integer kind.unsigned = integerType := by
      simpa [State.integerType] using h
    simp [Ty.intKind,Ty.UnsignedSafe]
  | importTypeName actualType =>
    obtain rfl : Ty.importIntMod actualType = integerType := by
      simpa [State.integerType] using h
    have hkind := actualType.modKind_iff
    simpa [Ty.intKind,Ty.UnsignedSafe] using hkind
  | typedefShadow actualType =>
    cases actualType with
    | integer kind =>
      obtain rfl : Ty.integer kind = integerType := by simpa [State.integerType] using h
      simp [Ty.intKind,Ty.UnsignedSafe,eq_comm]
    | enum => simp [Ty.intKind,Ty.UnsignedSafe]
    | _ => simp [State.integerType] at h
  | _ => simp [Ty.intKind,Ty.UnsignedSafe]

theorem unsignedSafe_codeInteger {type integerType : Ty} (h : CodeInteger type integerType) :
    integerType.UnsignedSafe := by
  unfold CodeInteger at h
  unfold State.integerType at h
  split at h <;> simp_all
  all_goals subst h; trivial

theorem unsignedSafe_of_isBuilt {type : Ty} (h : type.isBuilt) : type.UnsignedSafe := by
  cases type <;> simp_all [Ty.isBuilt,Ty.UnsignedSafe]

theorem not_codeInteger_of_isBuilt {type integerType : Ty} (h : type.isBuilt) :
    ¬ CodeInteger type integerType := by
  cases type <;> simp_all [Ty.isBuilt,CodeInteger,State.integerType]

variable {type made : Ty}

theorem Ctor.Makes.cases {integers : Ty → Ty → Prop} {ctor : Ctor}
    (h : ctor.Makes integers type made) :
    (ctor.kind = .integer made ∧ integers type made) ∨
      ((∀ integerType, ctor.kind ≠ .integer integerType) ∧ (made.isBuilt ∨ made = type)) := by
  obtain ⟨kind,suffix,modifiers⟩ := ctor
  unfold Makes at h
  split at h
  case h_1 integerType hkind hsuffix =>
    obtain ⟨hint,rfl⟩ := h
    exact Or.inl ⟨hkind,hint⟩
  case h_2 isAutoSize _ hkind hsuffix =>
    obtain ⟨-,-,-,rfl⟩ := h
    refine Or.inr ⟨fun _ hint => by simp_all,Or.inl ?_⟩
    cases isAutoSize <;> rfl
  case h_17 => exact False.elim h
  all_goals
    rename_i hkind hsuffix
    refine Or.inr ⟨fun _ hint => by simp_all,?_⟩
    simp_all [Ty.isBuilt]

theorem Ctor.Makes.unique {integers integers' : Ty → Ty → Prop} {ctor : Ctor} {type made made' : Ty}
    (h : ctor.Makes integers type made) (h' : ctor.Makes integers' type made') : made = made' := by
  obtain ⟨kind,suffix,modifiers⟩ := ctor
  unfold Makes at h h'
  split at h <;> simp_all

theorem Ctor.Makes.mono {integers integers' : Ty → Ty → Prop} {ctor : Ctor}
    (h : ctor.Makes integers type made) (himp : ∀ integerType, ctor.kind = .integer integerType →
      integers type integerType → integers' type integerType) :
    ctor.Makes integers' type made := by
  obtain ⟨kind,suffix,modifiers⟩ := ctor
  unfold Makes at h ⊢
  split at h
  case h_1 integerType hkind hsuffix => exact ⟨himp integerType hkind h.1,h.2⟩
  all_goals exact h

/-- Nothing in the list is made of integers. -/
def NoInteger (ctors : List Ctor) : Prop := ∀ ctor ∈ ctors, ∀ type, ctor.kind ≠ .integer type

theorem Reads.noInteger {ctors : List Ctor} (h : Reads CodeInteger type ctors made)
    (hbuilt : type.isBuilt) : NoInteger ctors := by
  induction ctors generalizing type with
  | nil => simp [NoInteger]
  | cons ctor ctors ih =>
    obtain ⟨mid,hmakes,hreads⟩ := h
    rcases hmakes.cases with ⟨-,hint⟩ | ⟨hkind,hmid⟩
    · exact absurd hint (not_codeInteger_of_isBuilt hbuilt)
    · have hmid : mid.isBuilt := hmid.elim id fun heq => heq ▸ hbuilt
      exact List.forall_mem_cons.2 ⟨hkind,ih hreads hmid⟩

theorem Reads.unsigned {ctors : List Ctor} (h : Reads CodeInteger type ctors made)
    (hsafe : type.UnsignedSafe ∨ NoInteger ctors) : Reads UnsignedInteger type ctors made := by
  induction ctors generalizing type with
  | nil => exact h
  | cons ctor ctors ih =>
    obtain ⟨mid,hmakes,hreads⟩ := h
    have hfirst : ctor.Makes UnsignedInteger type mid := by
      refine hmakes.mono fun integerType hkind hint => ?_
      rcases hsafe with hsafe | hno
      · exact (unsignedInteger_iff hint).2 hsafe
      · exact absurd hkind (hno ctor List.mem_cons_self integerType)
    refine ⟨mid,hfirst,ih hreads ?_⟩
    rcases hsafe with hsafe | hno
    · rcases hmakes.cases with ⟨-,hint⟩ | ⟨-,hbuilt | rfl⟩
      · exact Or.inl (unsignedSafe_codeInteger hint)
      · exact Or.inl (unsignedSafe_of_isBuilt hbuilt)
      · exact Or.inl hsafe
    · exact Or.inr fun ctor hctor => hno ctor (List.mem_cons_of_mem _ hctor)

theorem Reads.unsignedSafe {ctors : List Ctor} (h : Reads CodeInteger type ctors made)
    (h' : Reads UnsignedInteger type ctors made) (hsome : ¬ NoInteger ctors) :
    type.UnsignedSafe := by
  induction ctors generalizing type with
  | nil => exact absurd (by simp [NoInteger]) hsome
  | cons ctor ctors ih =>
    obtain ⟨mid,hmakes,hreads⟩ := h
    obtain ⟨mid',hmakes',hreads'⟩ := h'
    obtain rfl := hmakes.unique hmakes'
    rcases hmakes.cases with ⟨hkind,hint⟩ | ⟨hkind,hmid⟩
    · rcases hmakes'.cases with ⟨-,hint'⟩ | ⟨hkind',-⟩
      · exact (unsignedInteger_iff hint).1 hint'
      · exact absurd hkind (hkind' mid)
    · have hrest : ¬ NoInteger ctors := fun hno =>
        hsome (List.forall_mem_cons.2 ⟨hkind,hno⟩)
      rcases hmid with hbuilt | rfl
      · exact absurd (hreads.noInteger hbuilt) hrest
      · exact ih hreads hreads' hrest

end Jancy.Ct.DeclTypeCalc
