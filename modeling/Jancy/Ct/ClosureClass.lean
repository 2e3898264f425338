import Jancy.Ct.ClosureViews

/-! The class types of closures, and the field in which they look for the this argument. -/
namespace Jancy.Ct

open Holes

/-- The kinds of the types of closure fields; of other types it only matters whether they hold
references. -/
inductive FieldType where
  | thinPtr
  | classPtr
  | value (isGcRoot : Bool)
  deriving DecidableEq

def FieldType.isGcRoot : FieldType → Bool
  | thinPtr => false
  | classPtr => true
  | value isGcRoot => isGcRoot

/-- `thisArgFieldIdx` is `none` where the source has `-1`. -/
structure ClosureClassType where
  fieldArray : List FieldType
  thisArgFieldIdx : Option ℕ

namespace ClosureClassType

/-- `thisArgIdx + 1`; the index `-1` overflows to `0`. -/
def nextIdx : Option ℕ → Option ℕ
  | none => some 0
  | some thisArgIdx => some (thisArgIdx + 1)

/-- The fields are `m_target` and one for each captured argument. -/
def getFunctionClosureClassType (argTypeArray : List FieldType) (thisArgIdx : Option ℕ) :
    ClosureClassType :=
  ⟨.thinPtr :: argTypeArray,nextIdx thisArgIdx⟩

def getPropertyClosureClassType (argTypeArray : List FieldType) (thisArgIdx : Option ℕ) :
    ClosureClassType :=
  ⟨.thinPtr :: argTypeArray,nextIdx thisArgIdx⟩

/-- The fields are `m_reactor` and `m_binding`. -/
def createReactorClosureType : ClosureClassType :=
  ⟨[.classPtr,.value false],some 0⟩

end ClosureClassType

namespace ClosureObject

variable {A V : Type}

/-- The field index stands for the this argument: the field belongs to the parameter that the
closure holds as its this argument, and without one there is no field. -/
def DesignatesThis (object : ClosureObject A V) (fieldIdx : Option ℕ) : Prop :=
  match object.thisArgIdx with
  | none => fieldIdx = none
  | some thisArgIdx => ∃ j, fieldIdx = some (j + 1) ∧ object.closureMap[j]? = some thisArgIdx

variable {slots : List (Option V)} {argArray : List A}

theorem closureArgs_fields {i : ℕ} (hlength : slots.length ≤ argArray.length) :
    (closureArgs i slots argArray).map (·.2.2) = slots.filterMap id := by
  induction slots generalizing i argArray with
  | nil => cases argArray <;> rfl
  | cons slot slots ih =>
    cases argArray with
    | nil => simp at hlength
    | cons arg argArray =>
      have hrest := @ih argArray (i + 1) (by simpa using hlength)
      cases slot with
      | none => simpa [closureArgs] using hrest
      | some value => simpa [closureArgs] using hrest

theorem closureMap_of_full {i j : ℕ} (hlength : slots.length ≤ argArray.length)
    (hfull : holes (slots.take j) = 0) {value : V} (hslot : slots[j]? = some (some value)) :
    ((closureArgs i slots argArray).map (·.2.1))[j]? = some (i + j) := by
  induction slots generalizing i j argArray with
  | nil => simp at hslot
  | cons slot slots ih =>
    cases argArray with
    | nil => simp at hlength
    | cons arg argArray =>
      cases j with
      | zero =>
        obtain rfl : slot = some value := by simpa using hslot
        simp [closureArgs]
      | succ j =>
        cases slot with
        | none => simp at hfull
        | some first =>
          have hrest := @ih argArray (i + 1) j (by simpa using hlength) (by simpa using hfull)
            (by simpa using hslot)
          rw [closureArgs,List.map_cons,List.getElem?_cons_succ,hrest]
          congr 1
          omega

theorem closureMap_ge {i j k : ℕ} (hmap : ((closureArgs i slots argArray).map (·.2.1))[j]? = some k) :
    i + j ≤ k := by
  induction slots generalizing i j argArray with
  | nil => cases argArray <;> simp [closureArgs] at hmap
  | cons slot slots ih =>
    cases argArray with
    | nil => cases slot <;> simp [closureArgs] at hmap
    | cons arg argArray =>
      cases slot with
      | none =>
        rw [closureArgs] at hmap
        have hle := ih hmap
        omega
      | some value =>
        rw [closureArgs,List.map_cons] at hmap
        cases j with
        | zero =>
          have hik : i = k := by simpa using hmap
          omega
        | succ j =>
          have hle := ih hmap
          omega

theorem full_of_closureMap {i j : ℕ}
    (hmap : ((closureArgs i slots argArray).map (·.2.1))[j]? = some (i + j)) :
    holes (slots.take j) = 0 := by
  induction slots generalizing i j argArray with
  | nil => simp
  | cons slot slots ih =>
    cases argArray with
    | nil => cases slot <;> simp [closureArgs] at hmap
    | cons arg argArray =>
      cases slot with
      | none =>
        rw [closureArgs] at hmap
        have hle := closureMap_ge hmap
        omega
      | some value =>
        cases j with
        | zero => simp
        | succ j =>
          rw [closureArgs,List.map_cons,List.getElem?_cons_succ] at hmap
          have hrest := @ih argArray (i + 1) j (by rw [hmap]; congr 1; omega)
          simpa using hrest

/-- The index that the class type records stands for the this argument exactly if there is one and
no argument in front of it was skipped. -/
theorem designatesThis_nextIdx {T : Type} {closure : Closure T V} {srcArgArray : List A}
    {object : ClosureObject A V} (hcreate : create closure srcArgArray = .ok object)
    (hthis : ∀ i, closure.thisArgIdx = some i → ∃ value, closure.argValueList[i]? =
      some (some value)) :
    object.DesignatesThis (ClosureClassType.nextIdx object.thisArgIdx) ↔
      ∃ i, closure.thisArgIdx = some i ∧ holes (closure.argValueList.take i) = 0 := by
  rw [create] at hcreate
  split at hcreate
  case isTrue => cases hcreate
  case isFalse hlength =>
    cases hcreate
    rw [DesignatesThis]
    cases hidx : closure.thisArgIdx with
    | none => simp [ClosureClassType.nextIdx]
    | some i =>
      simp only [ClosureClassType.nextIdx,Option.some.injEq,exists_eq_left']
      constructor
      · rintro ⟨j,hj,hmap⟩
        obtain rfl : i = j := by omega
        exact full_of_closureMap (by rw [hmap,Nat.zero_add])
      · intro hfull
        obtain ⟨value,hslot⟩ := hthis i hidx
        refine ⟨i,rfl,?_⟩
        rw [closureMap_of_full (Nat.le_of_not_lt hlength) hfull hslot,Nat.zero_add]

end ClosureObject

end Jancy.Ct

/-! A call through a partially applied function is the direct call, as long as the applications
come to an end. -/
namespace Jancy.Ct

open Holes PartialApplication

variable {T V A : Type}

namespace PartialApplication

theorem neverOntoEmpty_concat {applications : List (PartialApplication T V)}
    {application : PartialApplication T V} :
    NeverOntoEmpty (applications ++ [application]) ↔
      NeverOntoEmpty applications ∧ OntoFull applications application := by
  constructor
  · intro hall
    refine ⟨?_,hall applications application [] rfl⟩
    intro before next after happ
    exact hall before next (after ++ [application]) (by rw [happ]; simp)
  · rintro ⟨hall,hlast⟩ before next after happ
    rcases List.eq_nil_or_concat after with rfl | ⟨after',last,rfl⟩
    · obtain ⟨rfl,hnext⟩ := List.append_inj' happ rfl
      rw [List.cons.injEq] at hnext
      rwa [← hnext.1]
    · have happ' : applications ++ [application] = (before ++ next :: after') ++ [last] := by
        simpa using happ
      obtain ⟨rfl,-⟩ := List.append_inj' happ' rfl
      exact hall before next after' rfl

theorem step_ends_iff {applications : List (PartialApplication T V)}
    {application : PartialApplication T V} {closure : Closure T V}
    (hbuilt : Ends applications closure) :
    (∃ closure' turns, application.step turns closure = some closure') ↔
      OntoFull applications application := by
  obtain ⟨hargs,htemplate⟩ := hbuilt.closure_eq
  cases application with
  | appendValue argValue => exact iff_of_true ⟨_,0,rfl⟩ trivial
  | insertThisArgValue value => exact iff_of_true ⟨_,0,rfl⟩ trivial
  | append argValueList =>
    rw [OntoFull,← hargs]
    constructor
    · rintro ⟨closure',turns,hstep⟩
      obtain ⟨rest,hloop,-⟩ := Option.map_eq_some_iff.mp hstep
      exact (prependLoop_some hloop).1
    · intro hfull
      have hloop := Closure.prependLoop_of_full argValueList hfull (Nat.lt_succ_self _)
      exact ⟨_,_,Option.map_eq_some_iff.mpr ⟨_,hloop,rfl⟩⟩
  | appendTemplateArgs argTypeArray =>
    rw [OntoFull,← htemplate]
    constructor
    · rintro ⟨closure',turns,hstep⟩
      obtain ⟨rest,hloop,-⟩ := Option.map_eq_some_iff.mp hstep
      exact (prependLoop_some hloop).1
    · intro hfull
      have hloop := Closure.prependLoop_of_full argTypeArray hfull (Nat.lt_succ_self _)
      exact ⟨_,_,Option.map_eq_some_iff.mpr ⟨_,hloop,rfl⟩⟩

theorem ends_iff (applications : List (PartialApplication T V)) :
    (∃ closure, Ends applications closure) ↔ NeverOntoEmpty applications := by
  induction applications using List.reverseRecOn with
  | nil => exact iff_of_true ⟨_,0,rfl⟩ (by simp [NeverOntoEmpty])
  | append_singleton applications application ih =>
    rw [neverOntoEmpty_concat,← ih]
    constructor
    · rintro ⟨closure,hends⟩
      obtain ⟨before,hbefore,hstep⟩ := ends_concat.mp hends
      exact ⟨⟨before,hbefore⟩,(step_ends_iff hbefore).mp ⟨closure,hstep⟩⟩
    · rintro ⟨⟨before,hbefore⟩,honto⟩
      obtain ⟨closure,hstep⟩ := (step_ends_iff hbefore).mpr honto
      exact ⟨closure,ends_concat.mpr ⟨before,hbefore,hstep⟩⟩

end PartialApplication

namespace Closure

/-- The views of a closure place what was applied and what a call supplies at the parameters of
the direct call; a call that leaves an empty slot is refused. -/
structure PlacesAlike (checkCastKind : V → A → Except String Unit)
    (applications : List (PartialApplication T V)) (closure : Closure T V) : Prop where
  templateArgs : ∀ argTypeArray,
    fill closure.templateArgArray argTypeArray = suppliedTemplate applications argTypeArray
  tooBig : ∀ srcArgArray : List A, srcArgArray.length < (supplied applications []).length →
    (∃ error, closure.getArgTypeArray checkCastKind srcArgArray = .error error) ∧
      ∃ error, ClosureObject.create closure srcArgArray = .error error
  types : ∀ srcArgArray : List A, (supplied applications []).length ≤ srcArgArray.length →
    Fits checkCastKind (supplied applications []) srcArgArray →
      ∃ argArray, closure.getArgTypeArray checkCastKind srcArgArray = .ok argArray ∧
        holes (supplied applications []) ≤ argArray.length ∧
        fill (slotTypes (supplied applications []) srcArgArray) (argArray.map some) =
          srcArgArray.map some
  misfit : ∀ srcArgArray : List A, (supplied applications []).length ≤ srcArgArray.length →
    ¬ Fits checkCastKind (supplied applications []) srcArgArray →
      ∃ error, closure.getArgTypeArray checkCastKind srcArgArray = .error error
  call : ∀ args, holes (supplied applications []) ≤ args.length →
    closure.apply args = .ok (supplied applications args)
  missing : ∀ args, args.length < holes (supplied applications []) →
    ∃ error, closure.apply args = .error error
  thunk : ∀ srcArgArray : List A, (supplied applications []).length ≤ srcArgArray.length →
    ∃ object, ClosureObject.create closure srcArgArray = .ok object ∧
      ∀ closureValue args, holes (supplied applications []) ≤ args.length →
        object.buildArgValueList (closureValue :: args) = some (supplied applications args)

theorem holes_le_remaining {slots : List (Option V)} {argArray : List A}
    (hlength : slots.length ≤ argArray.length) :
    holes slots ≤ (remaining slots argArray).length := by
  induction slots generalizing argArray with
  | nil => simp
  | cons slot slots ih =>
    cases argArray with
    | nil => simp at hlength
    | cons arg argArray =>
      have hrest := @ih argArray (by simpa using hlength)
      cases slot with
      | some value => simpa [remaining] using hrest
      | none => simpa [remaining] using hrest

theorem apply_missing {closure : Closure T V} {args : List (Option V)}
    (hmissing : args.length < holes closure.argValueList) :
    ∃ error, closure.apply args = .error error := by
  rw [apply]
  split
  case isTrue hnil => simp [hnil] at hmissing
  case isFalse => exact applyLoop_error hmissing

theorem placesAlike (checkCastKind : V → A → Except String Unit)
    {applications : List (PartialApplication T V)} {closure : Closure T V}
    (hends : Ends applications closure) : PlacesAlike checkCastKind applications closure := by
  obtain ⟨hargs,htemplate⟩ := hends.closure_eq
  constructor
  case templateArgs =>
    intro argTypeArray
    rw [htemplate,← suppliedTemplate_eq]
  case tooBig =>
    intro srcArgArray hbig
    rw [← hargs] at hbig
    rw [getArgTypeArray,if_pos hbig,ClosureObject.create,if_pos hbig]
    exact ⟨⟨_,rfl⟩,⟨_,rfl⟩⟩
  case types =>
    intro srcArgArray hlength hfits
    rw [← hargs] at hlength hfits ⊢
    exact ⟨_,(getArgTypeArray_eq hlength).1 hfits,holes_le_remaining hlength,
      fill_remaining hlength⟩
  case misfit =>
    intro srcArgArray hlength hfits
    rw [← hargs] at hlength hfits
    exact (getArgTypeArray_eq hlength).2 hfits
  case call =>
    intro args hholes
    rw [← hargs] at hholes
    rw [supplied_eq,← hargs]
    exact (apply_ok_iff closure args).mpr hholes
  case missing =>
    intro args hmissing
    rw [← hargs] at hmissing
    exact apply_missing hmissing
  case thunk =>
    intro srcArgArray hlength
    rw [← hargs] at hlength ⊢
    refine ⟨_,if_neg (Nat.not_lt.mpr hlength),?_⟩
    intro closureValue args hholes
    rw [supplied_eq,← hargs]
    exact ClosureObject.buildLoop_closureArgs hlength hholes

end Closure

namespace PartialApplication

/-- The applications end, and the views of the closure agree with the direct call. -/
def CallsThrough (checkCastKind : V → A → Except String Unit)
    (applications : List (PartialApplication T V)) : Prop :=
  ∃ closure, Ends applications closure ∧ Closure.PlacesAlike checkCastKind applications closure

/-- A call through the closure is the direct call exactly if no list was appended to an empty
slot. -/
theorem callsThrough_iff (checkCastKind : V → A → Except String Unit)
    (applications : List (PartialApplication T V)) :
    CallsThrough checkCastKind applications ↔ NeverOntoEmpty applications := by
  rw [← ends_iff]
  constructor
  · rintro ⟨closure,hends,-⟩
    exact ⟨closure,hends⟩
  · rintro ⟨closure,hends⟩
    exact ⟨closure,hends,Closure.placesAlike checkCastKind hends⟩

/-- The closure of `f(,)` never gets its next list of arguments: the loop of `prepend` stays at the
empty slot. -/
theorem append_ontoSkipped :
    (∀ turns, [append [none],append [some 1]].foldlM (step (T := Unit) (V := ℕ) turns)
      Closure.empty = none) ∧
    ¬ CallsThrough (T := Unit) (V := ℕ) (A := ℕ) (fun _ _ => .ok ())
      [append [none],append [some 1]] := by
  have hnone : ∀ turns, [append [none],append [some 1]].foldlM (step (T := Unit) (V := ℕ) turns)
      Closure.empty = none := by
    intro turns
    cases turns with
    | zero => rfl
    | succ turns =>
      have hloop : Closure.prependLoop turns [none] [some 1] = none :=
        Closure.prependLoop_of_holes turns [some 1] (Nat.succ_ne_zero 0)
      simp [step,Closure.append,Closure.prependLoop,Closure.empty,hloop]
  refine ⟨hnone,?_⟩
  rintro ⟨closure,⟨turns,hends⟩,-⟩
  rw [hnone turns] at hends
  cases hends

end PartialApplication

end Jancy.Ct
