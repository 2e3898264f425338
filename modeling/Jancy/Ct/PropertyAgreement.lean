import Mathlib.Order.MinMax
import Jancy.Ct.PropertyCast

/-! Vtables against property types for every property, and the creation of thunks for every cast that
the cast kinds permit. -/
namespace Jancy.Ct.Properties
open Property (placedType)

variable {κ α : Type} [DecidableEq κ] [DecidableEq α] {Γ : TypeMgr κ α}

/-- `setterValueCastKinds` on the types of the arguments. -/
def valueCastKinds (Γ : TypeMgr κ α) (overloads : List (List (Ty κ α))) (thunkArgs : List (Ty κ α)) :
    Option (List CastKind) := do
  let first ← overloads.head?
  let value ← thunkArgs.getLast?
  overloads.mapM fun args => (args[first.length - 1]?).map (Γ.castKind value)

def argTypes (f : FunctionType κ α) : List (Ty κ α) :=
  f.args.map (·.type)

omit [DecidableEq κ] [DecidableEq α] in
theorem setterValueCastKinds_eq (overloads : List (FunctionType κ α)) (f : FunctionType κ α) :
    setterValueCastKinds Γ overloads f = valueCastKinds Γ (overloads.map argTypes) (argTypes f) := by
  unfold setterValueCastKinds valueCastKinds
  rw [List.head?_map]
  cases overloads.head? with
  | none => rfl
  | some first =>
    simp only [Option.bind_eq_bind, Option.map_some, Option.bind_some, List.mapM_map]
    simp [argTypes, List.getLast?_map, Option.map_map, Function.comp_def]
    cases f.args.getLast? <;> rfl

omit [DecidableEq κ] [DecidableEq α] in
theorem valueCastKinds_cons {this : Ty κ α} {overloads : List (List (Ty κ α))} {args : List (Ty κ α)}
    (hargs : args ≠ []) (hoverloads : ∀ a ∈ overloads, a ≠ []) :
    valueCastKinds Γ (overloads.map (this :: ·)) (this :: args) = valueCastKinds Γ overloads args := by
  unfold valueCastKinds
  rw [List.head?_map, List.getLast?_cons_of_ne_nil hargs]
  cases hfirst : overloads.head? with
  | none => rfl
  | some first =>
    have hne : first ≠ [] := hoverloads first (List.mem_of_head? hfirst)
    obtain ⟨n,hn⟩ : ∃ n, first.length = n + 1 :=
      Nat.exists_eq_succ_of_ne_zero (by simpa using hne)
    simp [hn, Function.comp_def]

theorem argTypes_of_isEqual {f g : FunctionType κ α} (h : f.isEqual g = true) :
    argTypes f = argTypes g :=
  congrArg FunctionType.Signature.argTypes (FunctionType.isEqual_iff.mp h)

theorem map_argTypes {setter : List (Accessor κ α)} {types : List (FunctionType κ α)}
    (h : List.Forall₂ (fun f type => f.type.isEqual type = true) setter types) :
    (setter.map (·.type)).map argTypes = types.map argTypes := by
  induction h with
  | nil => rfl
  | cons hfirst _ ih => simp only [List.map_cons, argTypes_of_isEqual hfirst, ih]

variable {f : FunctionType κ α}

theorem DeclaredPropertyType.argTypes_ne (T : DeclaredPropertyType κ α) (hf : f ∈ T.type.setterType) :
    argTypes f ≠ [] := by
  obtain ⟨args,-,hset,-⟩ := T.verified
  have hindex := hset f hf
  unfold indexArgs at hindex
  rw [getShortType_plain (T.plainSetter f hf)] at hindex
  intro hnil
  rw [show (f.args.map (·.type)) = [] from hnil] at hindex
  simp at hindex

variable {p : Property κ α}

theorem VtableAgrees.setters {T : PropertyType κ α} (h : VtableAgrees Γ p) (htype : p.type = some T) :
    p.getter.isSome ∧
      List.Forall₂ (fun f type => f.type.isEqual type = true) p.setter T.setterType := by
  have hvtable := h
  obtain ⟨_,vtable,-,hprepare,-⟩ := hvtable
  cases hgetter : p.getter with
  | none => simp [Property.prepareVtable, hgetter] at hprepare
  | some getter => exact ⟨rfl,((vtableAgrees_iff htype hgetter).mp h).2.2.2⟩

/-- The setters of a property of a declared type, with or without `this`, take values as the declared
type says. -/
theorem setterChosen_placed {parentType : Option κ} {S dst : DeclaredPropertyType κ α}
    (htype : p.type = some (placedType Γ parentType S.type)) (hagrees : VtableAgrees Γ p)
    (hf : f ∈ dst.type.setterType) :
    SetterChosen Γ (p.setter.map (·.type)) (memberTypeOf Γ parentType f {}) ↔
      SetterChosen Γ S.type.setterType f := by
  have hsetters := map_argTypes (hagrees.setters htype).2
  have hkinds : setterValueCastKinds Γ (p.setter.map (·.type)) (memberTypeOf Γ parentType f {}) =
      setterValueCastKinds Γ S.type.setterType f := by
    rw [setterValueCastKinds_eq, setterValueCastKinds_eq, hsetters, placedType_setterType]
    cases parentType with
    | none => simp [memberTypeOf]
    | some parentType =>
      have hne : ∀ a ∈ S.type.setterType.map argTypes, a ≠ [] := by
        intro a ha
        obtain ⟨g,hg,rfl⟩ := List.mem_map.mp ha
        exact S.argTypes_ne hg
      rw [← valueCastKinds_cons (dst.argTypes_ne hf) hne, List.map_map, List.map_map]
      rfl
  unfold SetterChosen
  rw [hkinds]

theorem min_ne_none {kind kind' : CastKind} (h : kind ≠ .none) (h' : kind' ≠ .none) :
    min kind kind' ≠ .none := by
  obtain hmin | hmin := min_choice kind kind'
  · rwa [hmin]
  · rwa [hmin]

omit [DecidableEq κ] [DecidableEq α] in
theorem worstArgCastKind_congr {worst : CastKind} {formals formals' : List (FunctionArg κ α)}
    {actuals : List (Ty κ α)} (htypes : formals.map (·.type) = formals'.map (·.type)) :
    worstArgCastKind Γ worst formals actuals = worstArgCastKind Γ worst formals' actuals := by
  induction formals generalizing formals' actuals worst with
  | nil =>
    obtain rfl : formals' = [] := by simpa using htypes.symm
    rfl
  | cons formal formals ih =>
    cases formals' with
    | nil => simp at htypes
    | cons formal' formals' =>
      obtain ⟨hfirst,hrest⟩ := List.cons.inj htypes
      cases actuals with
      | nil => rfl
      | cons actual actuals =>
        have hfirst : formal.type = formal'.type := hfirst
        simp only [worstArgCastKind, hfirst, ih hrest]

omit [DecidableEq κ] [DecidableEq α] in
theorem worstArgCastKind_snoc {worst : CastKind} {formals : List (FunctionArg κ α)}
    {actuals : List (Ty κ α)} {formal : FunctionArg κ α} {actual : Ty κ α} (hworst : worst ≠ .none)
    (hlength : formals.length = actuals.length) :
    worstArgCastKind Γ worst (formals ++ [formal]) (actuals ++ [actual]) =
      if worstArgCastKind Γ worst formals actuals = .none then .none
      else if Γ.castKind actual formal.type = .none then .none
      else min (Γ.castKind actual formal.type) (worstArgCastKind Γ worst formals actuals) := by
  induction formals generalizing actuals worst with
  | nil =>
    obtain rfl : actuals = [] := by simpa using hlength.symm
    simp [worstArgCastKind, hworst]
  | cons first formals ih =>
    cases actuals with
    | nil => simp at hlength
    | cons actual' actuals =>
      simp only [List.cons_append, worstArgCastKind]
      by_cases hkind : Γ.castKind actual' first.type = .none
      · simp [hkind]
      · simp only [hkind, if_false]
        exact ih (min_ne_none hkind hworst) (by simpa using hlength)

/-- An argument without a default value. -/
def plainArg (type : Ty κ α) : FunctionArg κ α where
  type := type

variable {formals actuals : List (Ty κ α)}

omit [DecidableEq κ] [DecidableEq α] in
theorem getArgCastKind_snoc {g f : FunctionType κ α} {type value : Ty κ α}
    (hg : argTypes g = formals ++ [type]) (hf : argTypes f = actuals ++ [value])
    (hlength : formals.length = actuals.length) :
    getArgCastKind Γ g (argTypes f) false =
      if worstArgCastKind Γ .identity (formals.map plainArg) actuals = .none then .none
      else if Γ.castKind value type = .none then .none
      else min (Γ.castKind value type)
        (worstArgCastKind Γ .identity (formals.map plainArg) actuals) := by
  have hargs : g.args.length = (argTypes f).length := by
    have hcount := congrArg List.length hg
    rw [hf]
    simp only [argTypes, List.length_map, List.length_append, List.length_singleton] at hcount ⊢
    omega
  have hdrop : dropInitialized g.args (argTypes f).length = some g.args := by
    rw [dropInitialized, ← hargs]
    simp
  have htypes : g.args.map (·.type) = (formals.map plainArg ++ [plainArg type]).map (·.type) := by
    have hmap : (formals.map plainArg).map (·.type) = formals := by
      simp [plainArg, Function.comp_def]
    rw [List.map_append, hmap]
    exact hg
  unfold getArgCastKind
  rw [if_neg (by omega), hdrop]
  dsimp only
  rw [worstArgCastKind_congr htypes, hf, worstArgCastKind_snoc (by decide) (by simpa using hlength)]
  rfl

/-- The overloads take the same index arguments, and as many as the thunk setter gives. -/
structure AlikeIndexed (overloads : List (FunctionType κ α)) (f : FunctionType κ α)
    (formals actuals : List (Ty κ α)) (value : Ty κ α) : Prop where
  thunk : argTypes f = actuals ++ [value]
  length : formals.length = actuals.length
  overload : ∀ g ∈ overloads, ∃ type, argTypes g = formals ++ [type]

/-- The type of the value that a setter takes. -/
def valueType (value : Ty κ α) (g : FunctionType κ α) : Ty κ α :=
  (argTypes g).getLast?.getD value

variable {overloads : List (FunctionType κ α)}

omit [DecidableEq κ] [DecidableEq α] in
theorem AlikeIndexed.argTypes_eq {f g : FunctionType κ α} {value : Ty κ α}
    (h : AlikeIndexed overloads f formals actuals value) (hg : g ∈ overloads) :
    argTypes g = formals ++ [valueType value g] := by
  obtain ⟨type,heq⟩ := h.overload g hg
  have hvalue : valueType value g = type := by simp [valueType, heq]
  rw [hvalue, heq]

omit [DecidableEq κ] [DecidableEq α] in
theorem mapM_some {β γ : Type} {l : List β} {g : β → Option γ} {g' : β → γ}
    (h : ∀ b ∈ l, g b = some (g' b)) : l.mapM g = some (l.map g') := by
  induction l with
  | nil => rfl
  | cons b l ih =>
    rw [List.mapM_cons, h b List.mem_cons_self, ih fun c hc => h c (List.mem_cons_of_mem _ hc)]
    rfl

omit [DecidableEq κ] [DecidableEq α] in
theorem AlikeIndexed.castKinds {value : Ty κ α} (h : AlikeIndexed overloads f formals actuals value)
    (hne : overloads ≠ []) :
    setterValueCastKinds Γ overloads f =
      some (overloads.map fun g => Γ.castKind value (valueType value g)) := by
  rw [setterValueCastKinds_eq, h.thunk]
  unfold valueCastKinds
  cases overloads with
  | nil => exact absurd rfl hne
  | cons first overloads =>
    have hfirst : (argTypes first).length - 1 = formals.length := by
      simp [h.argTypes_eq List.mem_cons_self]
    simp only [List.map_cons, List.head?_cons, List.getLast?_concat, Option.bind_eq_bind,
      Option.bind_some, hfirst]
    rw [← List.map_cons, List.mapM_map]
    show _ = some ((first :: overloads).map fun g => Γ.castKind value (valueType value g))
    apply mapM_some
    intro g hg
    simp [h.argTypes_eq hg]

omit [DecidableEq κ] [DecidableEq α] in
/-- Where no default values come in, the setter that takes all arguments best takes the value
best. -/
theorem AlikeIndexed.setterChosen {value : Ty κ α} {i : ℕ}
    (h : AlikeIndexed overloads f formals actuals value)
    (hchoose : chooseBest (setterArgCastKinds Γ overloads f) = some i) :
    SetterChosen Γ overloads f := by
  obtain ⟨kind,hi,hkind,hbest⟩ := chooseBest_eq_some_iff.mp hchoose
  generalize hworst : worstArgCastKind Γ .identity (formals.map plainArg) actuals = worst
  have hkinds : ∀ g ∈ overloads, getArgCastKind Γ g (argTypes f) false =
      if worst = .none then .none
      else if Γ.castKind value (valueType value g) = .none then .none
      else min (Γ.castKind value (valueType value g)) worst := by
    intro g hg
    rw [getArgCastKind_snoc (h.argTypes_eq hg) h.thunk h.length, hworst]
  have hget : ∀ (j : ℕ) (g : FunctionType κ α), overloads[j]? = some g →
      (setterArgCastKinds Γ overloads f)[j]? = some (getArgCastKind Γ g (argTypes f) false) := by
    intro j g hg
    simp only [setterArgCastKinds, List.getElem?_map, hg, Option.map_some]
    rfl
  have hlt : i < overloads.length := by
    have := (List.getElem?_eq_some_iff.mp hi).1
    simpa [setterArgCastKinds] using this
  have hgi := hget i _ (List.getElem?_eq_getElem hlt)
  rw [hi, Option.some.injEq, hkinds _ (List.getElem_mem hlt)] at hgi
  have hw : worst ≠ .none := by
    intro hw
    rw [if_pos hw] at hgi
    exact hkind hgi
  rw [if_neg hw] at hgi
  have hvalue : Γ.castKind value (valueType value overloads[i]) ≠ .none := by
    intro hvalue
    rw [if_pos hvalue] at hgi
    exact hkind hgi
  rw [if_neg hvalue] at hgi
  refine ⟨_,i,h.castKinds (List.ne_nil_of_length_pos (by omega)),
    Γ.castKind value (valueType value overloads[i]),?_,hvalue,?_⟩
  · simp [List.getElem?_eq_getElem hlt]
  · intro j kind' hne hj
    rw [List.getElem?_map] at hj
    obtain ⟨g,hg,rfl⟩ := Option.map_eq_some_iff.mp hj
    have hless := hbest j _ hne (hget j g hg)
    rw [hkinds g (List.mem_of_getElem? hg), if_neg hw, hgi] at hless
    by_contra hnot
    have hle := not_lt.mp hnot
    rw [if_neg (fun hnone => by
      rw [hnone] at hle
      exact absurd (lt_of_lt_of_le (none_lt hvalue) hle) not_lt_none)] at hless
    exact absurd hless (not_lt.mpr (min_le_min hle le_rfl))

theorem DeclaredPropertyType.alikeIndexed (S dst : DeclaredPropertyType κ α)
    (hf : f ∈ dst.type.setterType) (hcount : ∀ g ∈ S.type.setterType, g.args.length = f.args.length)
    (hne : S.type.setterType ≠ []) :
    ∃ formals actuals value, AlikeIndexed S.type.setterType f formals actuals value := by
  obtain ⟨formals,-,hset,-⟩ := S.verified
  have hsplit : ∀ g ∈ S.type.setterType, ∃ type, argTypes g = formals ++ [type] := by
    intro g hg
    have hindex := hset g hg
    unfold indexArgs at hindex
    rw [getShortType_plain (S.plainSetter g hg)] at hindex
    dsimp only at hindex
    have hnil := S.argTypes_ne hg
    rw [if_neg (show ¬ (g.args.map (·.type)) = [] from hnil), Option.some.injEq] at hindex
    refine ⟨(argTypes g).getLast hnil,?_⟩
    rw [← hindex]
    exact (List.dropLast_concat_getLast hnil).symm
  have hnil := dst.argTypes_ne hf
  refine ⟨formals,(argTypes f).dropLast,(argTypes f).getLast hnil,
    (List.dropLast_concat_getLast hnil).symm,?_,hsplit⟩
  obtain ⟨g,hg⟩ := List.exists_mem_of_ne_nil _ hne
  obtain ⟨type,heq⟩ := hsplit g hg
  have hlength := congrArg List.length heq
  have hsame := hcount g hg
  simp only [argTypes, List.length_map, List.length_append, List.length_singleton,
    List.length_dropLast] at hlength ⊢
  omega

omit [DecidableEq κ] [DecidableEq α] in
theorem foldl_setters {overloads types : List (FunctionType κ α)} {worst : CastKind}
    (h : types.foldl (fun worst dst =>
      match chooseBest (setterArgCastKinds Γ overloads dst) with
      | none => .none
      | some j => min (((setterArgCastKinds Γ overloads dst)[j]?).getD .none) worst) worst ≠ .none) :
    worst ≠ .none ∧ ∀ f ∈ types, ∃ i, chooseBest (setterArgCastKinds Γ overloads f) = some i := by
  induction types generalizing worst with
  | nil => exact ⟨h,by simp⟩
  | cons f types ih =>
    obtain ⟨hfirst,hrest⟩ := ih h
    dsimp only at hfirst
    cases hchoose : chooseBest (setterArgCastKinds Γ overloads f) with
    | none =>
      rw [hchoose] at hfirst
      exact absurd rfl hfirst
    | some i =>
      rw [hchoose] at hfirst
      refine ⟨?_,?_⟩
      · rintro rfl
        apply hfirst
        exact min_eq_right (not_lt.mp not_lt_none)
      · rw [List.forall_mem_cons]
        exact ⟨⟨i,hchoose⟩,hrest⟩

theorem chooses_of_permitted {S dst : PropertyType κ α} (h : getPropertyPtrCastKind Γ S dst ≠ .none)
    (hf : f ∈ dst.setterType) :
    ∃ i, chooseBest (setterArgCastKinds Γ S.setterType f) = some i := by
  unfold getPropertyPtrCastKind at h
  dsimp only at h
  split at h
  · exact absurd rfl h
  · exact (foldl_setters h).2 f hf

theorem source_agrees_iff {source : PropertySource κ α} (h : source.build Γ = some p) :
    VtableAgrees Γ p ↔ source.Sound Γ := by
  cases source with
  | typed placement flags type =>
    obtain ⟨q,hq,hfinal⟩ := Option.bind_eq_some_iff.mp h
    have hblank : Blank placement.parentType (placement.property false : Property κ α) :=
      ⟨rfl,placement.placed.2,rfl,rfl,rfl,rfl,rfl⟩
    have hcreated := create_created hblank hq
    rw [hcreated.finalize] at hfinal
    obtain rfl := Option.some.inj hfinal
    exact hcreated.agrees_iff
  | body placement mods hasBody items => exact body_agrees_iff h
  | standard getterType setterType =>
    obtain rfl := Option.some.inj h
    rw [vtableAgrees_iff rfl rfl]
    simp [PropertySource.Sound, standardAccessor, FunctionType.isEqual_refl]
  | thunk target thunkType hasUnusedClosure => exact createThunkProperty_agrees_iff h
  | dataThunk thunkType hasUnusedClosure =>
    have hblank : Blank none ({ storageKind := .static, parentType := none } : Property κ α) :=
      ⟨rfl,by simp [Property.Placed],rfl,rfl,rfl,rfl,rfl⟩
    rw [(create_created hblank h).agrees_iff]
    cases hasUnusedClosure <;>
      simp [PropertySource.Sound, TypedSound, PropertyType.getStdObjectMemberPropertyType,
        PropertyType.getMemberPropertyType]

/-- The thunk that a cast of a property of the type `S` to `dst` asks for; the property and the thunk
take a `this` argument if there is a parent type. -/
def castThunk (Γ : TypeMgr κ α) (p : Property κ α) (parentType : Option κ)
    (dst : DeclaredPropertyType κ α) (hasUnusedClosure : Bool) : Option (Property κ α) :=
  createThunkProperty Γ p (placedType Γ parentType dst.type) hasUnusedClosure

theorem castThunk_isSome_iff {parentType : Option κ} {S dst : DeclaredPropertyType κ α}
    {hasUnusedClosure : Bool} (htype : p.type = some (placedType Γ parentType S.type))
    (hagrees : VtableAgrees Γ p) :
    (castThunk Γ p parentType dst hasUnusedClosure).isSome ↔
      ∀ f ∈ dst.type.setterType, SetterChosen Γ S.type.setterType f := by
  have hdistinct : ((placedType Γ parentType dst.type).setterType.map (·.argSignature)).Nodup := by
    cases parentType with
    | none =>
      obtain ⟨_,-,-,hnodup⟩ := dst.verified
      exact hnodup
    | some parentType =>
      obtain ⟨_,-,-,hnodup⟩ :=
        dst.verified.member (Γ := Γ) parentType dst.plainGetter dst.plainSetter
      exact hnodup
  unfold castThunk
  rw [createThunkProperty_isSome_iff (hagrees.setters htype).1 hdistinct, placedType_setterType,
    List.forall_mem_map]
  exact forall₂_congr fun f hf => setterChosen_placed htype hagrees hf

inductive SampleType where
  | int
  | charPtr
  | void
  | bool
  | multicastPtr
  | multicast
  deriving DecidableEq

def sampleMgr : TypeMgr Unit SampleType where
  abstractClass := ()
  isClass _ := true
  defaultCallConv := .jnccall_gcc64
  voidType := .void
  boolType := .bool
  multicastPtr := .multicastPtr
  simpleMulticast := .multicast
  castKind src dst := if src = dst then .identity else .none

def intProperty (isBindable : Bool) : DeclaredPropertyType Unit SampleType :=
  .indexed sampleMgr (.data .int) [] (by simp) false isBindable

/-- `int get(int i = 0)` and `set(int i = 0, char* p = null)`. -/
def defaultsProperty : DeclaredPropertyType Unit SampleType where
  type := {
    getterType := {
      callConv := .jnccall_gcc64
      returnType := .data .int
      args := [{ type := .data .int, hasInitializer := true }] }
    setterType := [{
      callConv := .jnccall_gcc64
      returnType := .data .void
      args := [{ type := .data .int, hasInitializer := true },
        { type := .data .charPtr, hasInitializer := true }] }]
    isBindable := false }
  verified := ⟨[.data .int],by decide,by decide,by decide⟩
  plainGetter := rfl
  plainSetter := by decide

def staticPlacement : Placement Unit where
  storageKind := .static
  parentType := none
  placed := by decide

def staticProperty (T : DeclaredPropertyType Unit SampleType) :
    Option (Property Unit SampleType) :=
  (PropertySource.typed staticPlacement {} T.type).build sampleMgr

end Jancy.Ct.Properties
