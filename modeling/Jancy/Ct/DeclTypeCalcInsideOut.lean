import Jancy.Ct.DeclTypeCalcBuild

/-! A declarator that is not rejected is read inside out exactly if no prefix and no modifier takes a
stripped dimension, and `unsigned` is not applied to the shadow of a signed integer. -/
namespace Jancy.Ct.DeclTypeCalc

/-- The pointer that the modifiers of a prefix ask for. -/
def pointerKinds (modifiers : Modifiers) : List CtorKind :=
  if .array ∈ modifiers then [.dataPtr]
  else if .function ∈ modifiers ∨ .async ∈ modifiers then [.functionPtr]
  else if .property ∈ modifiers then [.propertyPtr]
  else if .multicast ∈ modifiers ∨ .event ∈ modifiers then [.classPtr]
  else if .reactor ∈ modifiers then [.reactor]
  else [.dataPtr,.classPtr,.functionPtr,.propertyPtr,.importPtr,.templatePtr]

def prefixRest (type : Ty) (modifiers : Modifiers) (suffixes : List Suffix) : List Suffix :=
  if .array ∈ modifiers then suffixes.tail
  else if .function ∈ modifiers ∨ .async ∈ modifiers then functionRest suffixes
  else if .property ∈ modifiers then propertyRest modifiers suffixes
  else if .multicast ∈ modifiers ∨ .event ∈ modifiers then multicastRest type suffixes
  else suffixes

def prefixType (type : Ty) (modifiers : Modifiers) : Ty :=
  if .array ∈ modifiers then .data
  else if .function ∈ modifiers ∨ .async ∈ modifiers then .functionPtr
  else if .property ∈ modifiers then .data
  else if .multicast ∈ modifiers ∨ .event ∈ modifiers then .data
  else if .reactor ∈ modifiers then .class
  else if type = .function then .functionPtr
  else .data

def prefixesRest : Ty → List Suffix → List Modifiers → Ty × List Suffix
  | type, suffixes, [] => (type,suffixes)
  | type, suffixes, modifiers :: prefixes =>
      prefixesRest (prefixType type modifiers) (prefixRest type modifiers suffixes) prefixes

/-- The suffixes that the modifiers of the declarator itself leave to the loop. -/
def ownRest (type : Ty) (modifiers : Modifiers) (suffixes : List Suffix) : List Suffix :=
  if .property ∈ modifiers then propertyRest modifiers suffixes
  else if .multicast ∈ modifiers ∨ .event ∈ modifiers then multicastRest type suffixes
  else if .bindable ∈ modifiers ∧ type ≠ .void then suffixes.dropWhile (·.isArray)
  else suffixes

/-- Each of the modifiers is taken by exactly one constructor, and nothing else is taken. -/
def TakesModifiers (modifiers : Modifiers) (ctors : List Ctor) : Prop :=
  ∀ modifier, takenBy modifier ctors = if modifier ∈ modifiers then 1 else 0

/-- A prefix is read as these constructors, its pointer last. -/
def PrefixReads (modifiers : Modifiers) (ctors : List Ctor) : Prop :=
  TakesModifiers modifiers ctors ∧
    ∃ inner pointer, ctors = inner ++ [pointer] ∧ pointer.kind ∈ pointerKinds modifiers

theorem Builds.takesModifiers {s s' : State} {ctors : List Ctor} (h : Builds s s' ctors)
    (hempty : s'.modifiers = ∅) : TakesModifiers s.modifiers ctors := by
  intro modifier
  have hcounted := h.counted modifier
  simpa [hempty] using hcounted

namespace State

variable {s s' : State} {env : Env}

/-- The calculation goes to the second state, with a constructor of these kinds last. -/
def PointsTo (kinds : List CtorKind) (s s' : State) : Prop :=
  ∃ inner pointer, Builds s s' (inner ++ [pointer]) ∧ pointer.kind ∈ kinds

theorem pointsTo_build {mid : State} {kinds : List CtorKind} (h : BuildsTo s mid) (kind : CtorKind)
    (mask : Modifiers) {type : Ty} (hmem : kind ∈ kinds) (hmask : mask ⊆ kind.mask)
    (hkind : ∀ type, kind ≠ .integer type)
    (hmakes : ∀ modifiers, Ctor.Makes CodeInteger ⟨kind,none,modifiers⟩ mid.type type) :
    PointsTo kinds s (mid.build kind none mask type) := by
  obtain ⟨inner,h⟩ := h
  have hlast := builds_build mid kind none mask mid.suffixes rfl hmask
    (fun type h => absurd h (hkind type)) (hmakes _)
  exact ⟨inner,_,h.trans hlast,hmem⟩

theorem getTargetType_ok (h : s.getTargetType = .ok s')
    (htype : s.type ∉ [Ty.class,.function,.property]) :
    BuildsTo s s' ∧ s'.suffixes = s.suffixes ∧ s'.type ∉ [Ty.class,.function,.property] := by
  unfold getTargetType at h
  split at h
  case isTrue hunsigned =>
    obtain ⟨hbuilds,hint,hsuffixes,-⟩ := getIntegerType_ok h hunsigned
    have hne := not_mem_of_codeInteger hint
    refine ⟨hbuilds,hsuffixes,fun hmem => ?_⟩
    exact (hne s'.type (by simp at hmem ⊢; tauto)).2 rfl
  case isFalse =>
    obtain rfl := Except.ok.inj h
    exact ⟨.refl s,rfl,htype⟩

theorem getDataPtrType_ok {kinds : List CtorKind} {mid : State} (h : mid.getDataPtrType = .ok s')
    (hbuilds : BuildsTo s mid) (htype : mid.type ∉ [Ty.class,.function,.property])
    (hmem : .dataPtr ∈ kinds) :
    PointsTo kinds s s' ∧ s'.suffixes = mid.suffixes ∧ s'.type = .data := by
  obtain ⟨next,hnext,h⟩ := ok_of_bind h
  obtain rfl := Except.ok.inj h
  obtain ⟨hbuilds',hsuffixes,htype⟩ := getTargetType_ok hnext htype
  exact ⟨pointsTo_build (hbuilds.trans hbuilds') .dataPtr maskDataPtr hmem (Finset.Subset.refl _)
    nofun fun _ => ⟨htype,rfl⟩,hsuffixes,rfl⟩

theorem getPlainPointerType_ok (h : s.getPlainPointerType = .ok s') :
    PointsTo [.dataPtr,.classPtr,.functionPtr,.propertyPtr,.importPtr,.templatePtr] s s' ∧
      s'.suffixes = s.suffixes ∧ s'.type = if s.type = .function then .functionPtr else .data := by
  unfold getPlainPointerType at h
  split at h
  case h_1 htype =>
    obtain rfl := Except.ok.inj h
    exact ⟨pointsTo_build (.refl s) .classPtr maskClassPtr (by simp) (Finset.Subset.refl _)
      nofun fun _ => ⟨htype,rfl⟩,rfl,by rw [htype]; rfl⟩
  case h_2 htype =>
    obtain rfl := Except.ok.inj h
    exact ⟨pointsTo_build (.refl s) .functionPtr maskFunctionPtr (by simp) (Finset.Subset.refl _)
      nofun fun _ => ⟨htype,rfl⟩,rfl,by rw [htype]; rfl⟩
  case h_3 htype =>
    obtain rfl := Except.ok.inj h
    exact ⟨pointsTo_build (.refl s) .propertyPtr maskFunctionPtr (by simp) (Finset.Subset.refl _)
      nofun fun _ => ⟨htype,rfl⟩,rfl,by rw [htype]; rfl⟩
  case h_4 actualType htype =>
    obtain rfl := Except.ok.inj h
    exact ⟨pointsTo_build (.refl s) .importPtr maskImportPtr (by simp) (Finset.Subset.refl _)
      nofun fun _ => ⟨⟨actualType,htype⟩,rfl⟩,rfl,by rw [htype]; rfl⟩
  case h_5 htype =>
    obtain rfl := Except.ok.inj h
    exact ⟨pointsTo_build (.refl s) .templatePtr maskImportPtr (by simp) (Finset.Subset.refl _)
      nofun fun _ => ⟨htype,rfl⟩,rfl,by rw [htype]; rfl⟩
  case h_6 hclass hfunctionType hpropertyType _ _ =>
    rw [if_neg hfunctionType]
    exact getDataPtrType_ok h (.refl s) (by simpa using ⟨hclass,hfunctionType,hpropertyType⟩) (by simp)

theorem getPointerType_ok (h : s.getPointerType env = .ok s') :
    PointsTo (pointerKinds s.modifiers) s s' ∧
      s'.suffixes = prefixRest s.type s.modifiers s.suffixes ∧
      s'.type = prefixType s.type s.modifiers := by
  unfold getPointerType at h
  unfold pointerKinds prefixRest prefixType
  split at h
  case isTrue harray =>
    simp only [if_pos harray]
    obtain ⟨mid,hmid,h⟩ := ok_of_bind h
    obtain ⟨suffix,hfirst,hbuilds,-,htype⟩ := getArrayType_ok hmid
    have hptr := getDataPtrType_ok h hbuilds (by rcases htype with heq | heq <;> simp [heq])
      (List.mem_singleton.2 rfl)
    rw [hfirst]
    exact hptr
  rename_i harray
  split at h
  case isTrue hfunction =>
    simp only [if_neg harray,if_pos hfunction]
    obtain ⟨mid,hmid,h⟩ := ok_of_bind h
    obtain rfl := Except.ok.inj h
    obtain ⟨hbuilds,htype,hrest,-⟩ := getFunctionType_ok hmid
    exact ⟨pointsTo_build hbuilds .functionPtr maskFunctionPtr (List.mem_singleton.2 rfl)
      (Finset.Subset.refl _) nofun fun _ => ⟨htype,rfl⟩,hrest,rfl⟩
  rename_i hfunction
  split at h
  case isTrue hproperty =>
    simp only [if_neg harray,if_neg hfunction,if_pos hproperty]
    obtain ⟨mid,hmid,h⟩ := ok_of_bind h
    obtain rfl := Except.ok.inj h
    obtain ⟨hbuilds,htype,hrest⟩ := getPropertyType_ok hmid
    exact ⟨pointsTo_build hbuilds .propertyPtr maskFunctionPtr (List.mem_singleton.2 rfl)
      (Finset.Subset.refl _) nofun fun _ => ⟨htype,rfl⟩,hrest,rfl⟩
  rename_i hproperty
  split at h
  case isTrue hmulticast =>
    simp only [if_neg harray,if_neg hfunction,if_neg hproperty,if_pos hmulticast]
    obtain ⟨mid,hmid,h⟩ := ok_of_bind h
    obtain rfl := Except.ok.inj h
    obtain ⟨hbuilds,htype,hrest⟩ := getMulticastType_ok hmid
    exact ⟨pointsTo_build hbuilds .classPtr maskClassPtr (List.mem_singleton.2 rfl)
      (Finset.Subset.refl _) nofun fun _ => ⟨htype,rfl⟩,hrest,rfl⟩
  rename_i hmulticast
  split at h
  case isTrue hreactor =>
    simp only [if_neg harray,if_neg hfunction,if_neg hproperty,if_neg hmulticast,if_pos hreactor]
    obtain rfl := Except.ok.inj h
    exact ⟨pointsTo_build (.refl s) .reactor {.reactor} (List.mem_singleton.2 rfl)
      (Finset.Subset.refl _) nofun fun _ => rfl,rfl,rfl⟩
  rename_i hreactor
  simp only [if_neg harray,if_neg hfunction,if_neg hproperty,if_neg hmulticast,if_neg hreactor]
  exact getPlainPointerType_ok h

theorem checkUnusedModifiers_ok (h : s.checkUnusedModifiers = .ok s') : s' = s ∧ s.modifiers = ∅ := by
  unfold checkUnusedModifiers at h
  split at h
  · exact ⟨(Except.ok.inj h).symm,‹_›⟩
  · cases h

theorem pointerPrefix_ok {modifiers : Modifiers} (h : s.pointerPrefix env modifiers = .ok s') :
    ∃ ctors, Adds s s' ctors ∧ PrefixReads modifiers ctors ∧
      s'.suffixes = prefixRest s.type modifiers s.suffixes ∧ s'.type = prefixType s.type modifiers := by
  obtain ⟨mid,hmid,h⟩ := ok_of_bind h
  obtain ⟨rfl,hempty⟩ := checkUnusedModifiers_ok h
  obtain ⟨⟨inner,pointer,hbuilds,hkind⟩,hrest,htype⟩ := getPointerType_ok hmid
  have hadds : Adds s s' (inner ++ [pointer]) :=
    ⟨hbuilds.added,hbuilds.taken,hbuilds.masked,hbuilds.reads⟩
  exact ⟨_,hadds,⟨hbuilds.takesModifiers hempty,inner,pointer,rfl,hkind⟩,hrest,htype⟩

theorem pointerPrefixes_ok {prefixes : List Modifiers}
    (h : s.pointerPrefixes env prefixes = .ok s') :
    ∃ parts, Adds s s' parts.flatten ∧ List.Forall₂ PrefixReads prefixes parts ∧
      (s'.type,s'.suffixes) = prefixesRest s.type s.suffixes prefixes := by
  induction prefixes generalizing s with
  | nil =>
    obtain rfl := Except.ok.inj h
    exact ⟨[],.refl s,.nil,rfl⟩
  | cons modifiers prefixes ih =>
    obtain ⟨mid,hmid,h⟩ := ok_of_bind h
    obtain ⟨ctors,hadds,hreads,hrest,htype⟩ := pointerPrefix_ok hmid
    obtain ⟨parts,hadds',hparts,hrest'⟩ := ih h
    refine ⟨ctors :: parts,hadds.trans hadds',.cons hreads hparts,?_⟩
    rw [hrest',hrest,htype]
    rfl

theorem takeFlags_ok (hasFlags : Bool) {mask : Modifiers}
    (hmask : mask ⊆ CtorKind.mask .declFlags) : BuildsTo s (s.takeFlags hasFlags mask) := by
  cases hasFlags with
  | false => exact .refl s
  | true => exact buildsTo_build s .declFlags mask hmask nofun fun _ => rfl

theorem takeFlags_suffixes (hasFlags : Bool) (mask : Modifiers) :
    (s.takeFlags hasFlags mask).suffixes = s.suffixes := by
  cases hasFlags <;> rfl

theorem typeModifiers_ok {hasFlags : Bool} {modifiers : Modifiers}
    (h : s.typeModifiers env hasFlags modifiers = .ok s') :
    BuildsTo { s with modifiers } s' ∧ s'.suffixes = ownRest s.type modifiers s.suffixes := by
  obtain ⟨mid,hmid,h⟩ := ok_of_bind h
  obtain ⟨hbuilds,hsuffixes,hkeeps,-,hsame⟩ := checkInteger_ok hmid
  have hkeeps (modifier) (hne : modifier ≠ .unsigned) (hne' : modifier ≠ .array) :
      modifier ∈ mid.modifiers ↔ modifier ∈ modifiers := hkeeps modifier hne hne'
  have hvoid : mid.type = .void ↔ s.type = .void := hsame .void (by simp)
  have hsuffixes : mid.suffixes = s.suffixes := hsuffixes
  unfold ownRest
  simp only [← hkeeps .property (by simp) (by simp),← hkeeps .multicast (by simp) (by simp),
    ← hkeeps .event (by simp) (by simp),← hkeeps .bindable (by simp) (by simp),
    ← not_congr hvoid]
  split at h
  case isTrue hproperty =>
    obtain ⟨next,hnext,h⟩ := ok_of_bind h
    obtain rfl := Except.ok.inj h
    obtain ⟨hbuilds',-,hrest⟩ := getPropertyType_ok hnext
    have hflags : ({.autoGet} : Modifiers) ⊆ CtorKind.mask .declFlags := by decide
    refine ⟨(hbuilds.trans hbuilds').trans (takeFlags_ok hasFlags hflags),?_⟩
    rw [takeFlags_suffixes,hrest,if_pos hproperty,hsuffixes]
    simp only [propertyRest,hkeeps .indexed (by simp) (by simp)]
  rename_i hproperty
  rw [if_neg hproperty]
  split at h
  case isTrue hmulticast =>
    obtain ⟨hbuilds',-,hrest⟩ := getMulticastType_ok h
    refine ⟨hbuilds.trans hbuilds',?_⟩
    rw [hrest,if_pos hmulticast,hsuffixes]
    simp only [multicastRest,hsame .functionPtr (by simp),hsame .function (by simp)]
  rename_i hmulticast
  rw [if_neg hmulticast]
  split at h
  case isTrue hbindable =>
    obtain ⟨hbuilds',hrest⟩ := getBindableDataType_ok h
    exact ⟨hbuilds.trans hbuilds',by rw [hrest,if_pos hbindable,hsuffixes]⟩
  rename_i hbindable
  rw [if_neg hbindable]
  split at h
  case isTrue =>
    obtain rfl := Except.ok.inj h
    have hreactor := buildsTo_build mid .reactor {.reactor} (Finset.Subset.refl _)
      (by rintro _ ⟨⟩)
      fun _ => rfl
    exact ⟨hbuilds.trans hreactor,hsuffixes⟩
  case isFalse =>
    obtain rfl := Except.ok.inj h
    exact ⟨hbuilds,hsuffixes⟩

end State
end Jancy.Ct.DeclTypeCalc
