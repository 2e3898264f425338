import Jancy.Ct.Closure
import Mathlib.Data.List.Induction

/-! The views of a partial application: the types that are left, the arguments of a call through
the closure, and the arguments that the thunk of the closure object passes on. -/
namespace Jancy.Ct

open Holes

variable {T V A : Type}

inductive PartialApplication (T V : Type) where
  | appendValue (argValue : V)
  | append (argValueList : List (Option V))
  | appendTemplateArgs (argTypeArray : List (Option T))
  | insertThisArgValue (value : V)

namespace PartialApplication

/-- One operation on the closure, with a bound for the turns of its loop. -/
def step (turns : ℕ) (closure : Closure T V) : PartialApplication T V → Option (Closure T V)
  | appendValue argValue => some (closure.appendValue argValue)
  | append argValueList => closure.append turns argValueList
  | appendTemplateArgs argTypeArray => closure.appendTemplateArgs turns argTypeArray
  | insertThisArgValue value => some (closure.insertThisArgValue value)

/-- A sequence of operations on a new closure ends with this closure. -/
def Ends (applications : List (PartialApplication T V)) (closure : Closure T V) : Prop :=
  ∃ turns, applications.foldlM (step turns) Closure.empty = some closure

/-- What a call of the applied function passes to the function itself: the arguments of the call go
behind or between what was applied, and the this argument goes in front of everything. -/
def through (call : List (Option V) → List (Option V)) :
    PartialApplication T V → List (Option V) → List (Option V)
  | appendValue argValue,args => call (some argValue :: args)
  | append argValueList,args => call (fill argValueList args)
  | appendTemplateArgs _,args => call args
  | insertThisArgValue value,args => some value :: call args

/-- The arguments of the direct call that stands for a call with `args`. -/
def supplied (applications : List (PartialApplication T V)) : List (Option V) → List (Option V) :=
  applications.foldl through id

def throughTemplate (call : List (Option T) → List (Option T)) :
    PartialApplication T V → List (Option T) → List (Option T)
  | appendTemplateArgs argTypeArray,args => call (fill argTypeArray args)
  | _,args => call args

def suppliedTemplate (applications : List (PartialApplication T V)) :
    List (Option T) → List (Option T) :=
  applications.foldl throughTemplate id

/-- A list is appended only if no slot of the same kind is empty. -/
def OntoFull (before : List (PartialApplication T V)) : PartialApplication T V → Prop
  | append _ => holes (supplied before []) = 0
  | appendTemplateArgs _ => holes (suppliedTemplate before []) = 0
  | _ => True

/-- No list is appended while a slot of the same kind is empty. -/
def NeverOntoEmpty (applications : List (PartialApplication T V)) : Prop :=
  ∀ before application after, applications = before ++ application :: after →
    OntoFull before application

end PartialApplication

open PartialApplication

namespace Closure

theorem prependLoop_of_full {α : Type} {internalArg : List (Option α)} {turns : ℕ}
    (externalArg : List (Option α)) (hfull : holes internalArg = 0)
    (hturns : internalArg.length < turns) :
    prependLoop turns internalArg externalArg = some externalArg := by
  induction internalArg generalizing turns with
  | nil =>
    obtain ⟨turns,rfl⟩ := Nat.exists_eq_add_of_lt hturns
    rw [List.length_nil,Nat.zero_add,prependLoop]
  | cons slot internalArg ih =>
    cases turns with
    | zero => simp at hturns
    | succ turns =>
      cases slot with
      | none => simp at hfull
      | some a => exact ih (by simpa using hfull) (by simpa using hturns)

theorem prependLoop_of_holes {α : Type} {internalArg : List (Option α)} (turns : ℕ)
    (externalArg : List (Option α)) (hholes : holes internalArg ≠ 0) :
    prependLoop turns internalArg externalArg = none := by
  induction turns generalizing internalArg with
  | zero => rfl
  | succ turns ih =>
    match internalArg with
    | [] => simp at hholes
    | some a :: internalArg => exact ih (by simpa using hholes)
    | none :: internalArg => exact ih hholes

theorem replaceEmpty_eq (argValue : V) (argValueList : List (Option V)) :
    replaceEmpty argValue argValueList = fill argValueList [some argValue] := by
  induction argValueList with
  | nil => rfl
  | cons slot argValueList ih =>
    cases slot with
    | some a => rw [replaceEmpty,ih,fill]
    | none => rw [replaceEmpty,fill,fill_nil]

theorem applyLoop_ok {i : ℕ} {slots args : List (Option V)} (h : holes slots ≤ args.length) :
    applyLoop i slots args = .ok (fill slots args) := by
  induction slots generalizing i args with
  | nil => rfl
  | cons slot slots ih =>
    cases slot with
    | some a =>
      rw [applyLoop,ih (by simpa using h),fill]
      rfl
    | none =>
      cases args with
      | nil => simp at h
      | cons arg args =>
        rw [applyLoop,ih (by simpa using h),fill]
        rfl

theorem applyLoop_error {i : ℕ} {slots args : List (Option V)} (h : args.length < holes slots) :
    ∃ error, applyLoop i slots args = .error error := by
  induction slots generalizing i args with
  | nil => simp at h
  | cons slot slots ih =>
    cases slot with
    | some a =>
      obtain ⟨error,herror⟩ := @ih (i + 1) args (by simpa using h)
      exact ⟨error,by rw [applyLoop,herror]; rfl⟩
    | none =>
      cases args with
      | nil => exact ⟨_,rfl⟩
      | cons arg args =>
        obtain ⟨error,herror⟩ := @ih (i + 1) args (by simpa using h)
        exact ⟨error,by rw [applyLoop,herror]; rfl⟩

theorem apply_ok_iff (closure : Closure T V) (args : List (Option V)) :
    closure.apply args = .ok (fill closure.argValueList args) ↔
      holes closure.argValueList ≤ args.length := by
  rw [apply]
  split
  case isTrue hnil => simp [hnil]
  case isFalse =>
    constructor
    · intro hok
      by_contra hlt
      obtain ⟨error,herror⟩ := @applyLoop_error V 0 closure.argValueList args (by omega)
      rw [herror] at hok
      cases hok
    · exact fun h => applyLoop_ok h

/-- The parameters that are left for the call. -/
def remaining : List (Option V) → List A → List A
  | none :: slots,arg :: argArray => arg :: remaining slots argArray
  | some _ :: slots,_ :: argArray => remaining slots argArray
  | [],argArray => argArray
  | _,[] => []

/-- The type of each slot that holds a value. -/
def slotTypes (slots : List (Option V)) (argArray : List A) : List (Option A) :=
  List.zipWith (fun slot arg => slot.map fun _ => arg) slots argArray

/-- Every captured value can be cast to the parameter at its position. -/
def Fits (checkCastKind : V → A → Except String Unit) (slots : List (Option V))
    (argArray : List A) : Prop :=
  List.Forall₂ (fun slot arg => ∀ value, slot = some value → checkCastKind value arg = .ok ())
    slots (argArray.take slots.length)

variable {slots : List (Option V)}

theorem fill_remaining {argArray : List A} (h : slots.length ≤ argArray.length) :
    fill (slotTypes slots argArray) ((remaining slots argArray).map some) = argArray.map some := by
  induction slots generalizing argArray with
  | nil =>
    cases argArray with
    | nil => rfl
    | cons arg argArray => rfl
  | cons slot slots ih =>
    cases argArray with
    | nil => simp at h
    | cons arg argArray =>
      have hrest := ih (by simpa using h)
      cases slot with
      | none => simpa [slotTypes,remaining,fill] using hrest
      | some a => simpa [slotTypes,remaining,fill] using hrest

variable {checkCastKind : V → A → Except String Unit}

theorem fits_cons {slot : Option V} {arg : A} {argArray : List A} :
    Fits checkCastKind (slot :: slots) (arg :: argArray) ↔
      (∀ value, slot = some value → checkCastKind value arg = .ok ()) ∧
        Fits checkCastKind slots argArray := by
  simp [Fits]

theorem getElem?_behind (front : List A) (arg : A) (argArray : List A) :
    (front ++ arg :: argArray)[front.length]? = some arg := by
  simp

theorem eraseIdx_behind (front : List A) (arg : A) (argArray : List A) :
    (front ++ arg :: argArray).eraseIdx front.length = front ++ argArray := by
  rw [List.eraseIdx_append_of_length_le (Nat.le_refl _),Nat.sub_self]
  rfl

theorem getArgTypeArrayLoop_ok {front argArray : List A} (hlength : slots.length ≤ argArray.length)
    (hfits : Fits checkCastKind slots argArray) :
    getArgTypeArrayLoop checkCastKind front.length slots (front ++ argArray) =
      .ok (front ++ remaining slots argArray) := by
  induction slots generalizing front argArray with
  | nil => rw [getArgTypeArrayLoop,remaining]
  | cons slot slots ih =>
    cases argArray with
    | nil => simp at hlength
    | cons arg argArray =>
      obtain ⟨hslot,hrest⟩ := fits_cons.mp hfits
      have hlength' : slots.length ≤ argArray.length := by simpa using hlength
      cases slot with
      | none =>
        have hnext := @ih (front ++ [arg]) argArray hlength' hrest
        rw [List.length_append,List.append_assoc,List.append_assoc] at hnext
        exact hnext
      | some value =>
        rw [getArgTypeArrayLoop,getElem?_behind,remaining]
        simp only [hslot value rfl,eraseIdx_behind]
        exact ih hlength' hrest

theorem getArgTypeArrayLoop_error {front argArray : List A}
    (hlength : slots.length ≤ argArray.length) (hfits : ¬ Fits checkCastKind slots argArray) :
    ∃ error, getArgTypeArrayLoop checkCastKind front.length slots (front ++ argArray) =
      .error error := by
  induction slots generalizing front argArray with
  | nil => exact absurd (by simp [Fits]) hfits
  | cons slot slots ih =>
    cases argArray with
    | nil => simp at hlength
    | cons arg argArray =>
      have hlength' : slots.length ≤ argArray.length := by simpa using hlength
      cases slot with
      | none =>
        have hrest : ¬ Fits checkCastKind slots argArray :=
          fun hrest => hfits (fits_cons.mpr ⟨nofun,hrest⟩)
        obtain ⟨error,herror⟩ := @ih (front ++ [arg]) argArray hlength' hrest
        rw [List.length_append,List.append_assoc] at herror
        exact ⟨error,herror⟩
      | some value =>
        rw [getArgTypeArrayLoop,getElem?_behind]
        cases hcheck : checkCastKind value arg with
        | error error => exact ⟨error,by simp only [hcheck]⟩
        | ok =>
          have hrest : ¬ Fits checkCastKind slots argArray := by
            intro hrest
            apply hfits
            rw [fits_cons]
            refine ⟨?_,hrest⟩
            rintro _ ⟨⟩
            exact hcheck
          obtain ⟨error,herror⟩ := @ih front argArray hlength' hrest
          simp only [hcheck,eraseIdx_behind]
          exact ⟨error,herror⟩

theorem getArgTypeArray_eq {closure : Closure T V} {argArray : List A}
    (hlength : closure.argValueList.length ≤ argArray.length) :
    (Fits checkCastKind closure.argValueList argArray →
      closure.getArgTypeArray checkCastKind argArray =
        .ok (remaining closure.argValueList argArray)) ∧
    (¬ Fits checkCastKind closure.argValueList argArray →
      ∃ error, closure.getArgTypeArray checkCastKind argArray = .error error) := by
  rw [getArgTypeArray,if_neg (Nat.not_lt.mpr hlength)]
  exact ⟨fun hfits => @getArgTypeArrayLoop_ok V A _ checkCastKind [] argArray hlength hfits,
    fun hfits => @getArgTypeArrayLoop_error V A _ checkCastKind [] argArray hlength hfits⟩

end Closure

namespace ClosureObject

theorem closureArgs_ge {i : ℕ} {slots : List (Option V)} {argArray : List A} :
    ∀ idx ∈ (closureArgs i slots argArray).map (·.2.1), i ≤ idx := by
  induction slots generalizing i argArray with
  | nil => cases argArray <;> simp [closureArgs]
  | cons slot slots ih =>
    cases argArray with
    | nil => cases slot <;> simp [closureArgs]
    | cons arg argArray =>
      have hrest := @ih (i + 1) argArray
      intro idx hidx
      cases slot with
      | none =>
        rw [closureArgs] at hidx
        exact Nat.le_of_succ_le (hrest idx hidx)
      | some value =>
        rw [closureArgs,List.map_cons,List.mem_cons] at hidx
        rcases hidx with rfl | hidx
        · exact (Nat.le_refl _)
        · exact Nat.le_of_succ_le (hrest idx hidx)

theorem buildLoop_field (i : ℕ) (closureMap : List ℕ) (field : V) (argFields : List V)
    (thunkArgs : List (Option V)) :
    buildLoop i (i :: closureMap) (field :: argFields) thunkArgs =
      (some field :: ·) <$> buildLoop (i + 1) closureMap argFields thunkArgs := by
  rw [buildLoop.eq_def]
  simp

theorem buildLoop_thunk {i closureIdx : ℕ} (hne : i ≠ closureIdx) (closureMap : List ℕ) (field : V)
    (argFields : List V) (arg : Option V) (thunkArgs : List (Option V)) :
    buildLoop i (closureIdx :: closureMap) (field :: argFields) (arg :: thunkArgs) =
      (arg :: ·) <$>
        buildLoop (i + 1) (closureIdx :: closureMap) (field :: argFields) thunkArgs := by
  rw [buildLoop.eq_def]
  simp [hne]

theorem buildLoop_nil (i : ℕ) (thunkArgs : List (Option V)) :
    buildLoop i [] [] thunkArgs = some thunkArgs := by
  rw [buildLoop.eq_def]

theorem buildLoop_closureArgs {i : ℕ} {slots args : List (Option V)} {argArray : List A}
    (hlength : slots.length ≤ argArray.length) (hholes : holes slots ≤ args.length) :
    buildLoop i ((closureArgs i slots argArray).map (·.2.1))
      ((closureArgs i slots argArray).map (·.2.2)) args = some (fill slots args) := by
  induction slots generalizing i args argArray with
  | nil =>
    have hnone : closureArgs i ([] : List (Option V)) argArray = [] := by
      cases argArray <;> rfl
    rw [hnone]
    exact buildLoop_nil i args
  | cons slot slots ih =>
    cases argArray with
    | nil => simp at hlength
    | cons arg argArray =>
      have hlength' : slots.length ≤ argArray.length := by simpa using hlength
      cases slot with
      | some value =>
        rw [closureArgs,List.map_cons,List.map_cons,buildLoop_field,
          ih hlength' (by simpa using hholes),fill]
        rfl
      | none =>
        cases args with
        | nil => simp at hholes
        | cons first args =>
          have hrest := @ih (i + 1) args argArray hlength' (by simpa using hholes)
          have hge := @closureArgs_ge V A (i + 1) slots argArray
          rw [closureArgs]
          rcases hargs : closureArgs (i + 1) slots argArray with _ | ⟨captured,rest⟩
          · rw [hargs] at hrest
            rw [List.map_nil,List.map_nil,buildLoop_nil,Option.some.injEq] at hrest
            rw [List.map_nil,List.map_nil,buildLoop_nil,fill,← hrest]
          · rw [hargs] at hrest hge
            rw [List.map_cons] at hge
            have hne : i ≠ captured.2.1 := by
              have hle := hge _ List.mem_cons_self
              omega
            rw [List.map_cons,List.map_cons] at hrest ⊢
            rw [buildLoop_thunk hne,hrest,fill]
            rfl

end ClosureObject

namespace PartialApplication

theorem supplied_concat (applications : List (PartialApplication T V))
    (application : PartialApplication T V) :
    supplied (applications ++ [application]) = application.through (supplied applications) := by
  simp [supplied]

theorem suppliedTemplate_concat (applications : List (PartialApplication T V))
    (application : PartialApplication T V) :
    suppliedTemplate (applications ++ [application]) =
      application.throughTemplate (suppliedTemplate applications) := by
  simp [suppliedTemplate]

theorem supplied_eq (applications : List (PartialApplication T V)) (args : List (Option V)) :
    supplied applications args = fill (supplied applications []) args := by
  induction applications using List.reverseRecOn generalizing args with
  | nil => rfl
  | append_singleton applications application ih =>
    rw [supplied_concat]
    cases application with
    | appendValue argValue =>
      simp only [through]
      rw [ih (some argValue :: args),ih [some argValue],fill_assoc]
      rfl
    | append argValueList =>
      simp only [through]
      rw [ih (fill argValueList args),ih (fill argValueList []),fill_nil,fill_assoc]
    | appendTemplateArgs argTypeArray => exact ih args
    | insertThisArgValue value =>
      simp only [through]
      rw [ih args,fill]

theorem suppliedTemplate_eq (applications : List (PartialApplication T V))
    (args : List (Option T)) :
    suppliedTemplate applications args = fill (suppliedTemplate applications []) args := by
  induction applications using List.reverseRecOn generalizing args with
  | nil => rfl
  | append_singleton applications application ih =>
    rw [suppliedTemplate_concat]
    cases application with
    | appendTemplateArgs argTypeArray =>
      simp only [throughTemplate]
      rw [ih (fill argTypeArray args),ih (fill argTypeArray []),fill_nil,fill_assoc]
    | _ => exact ih args

theorem prependLoop_some {α : Type} {turns : ℕ} {internalArg externalArg rest : List (Option α)}
    (h : Closure.prependLoop turns internalArg externalArg = some rest) :
    holes internalArg = 0 ∧ internalArg.length < turns ∧ rest = externalArg := by
  have hfull : holes internalArg = 0 := by
    by_contra hholes
    rw [Closure.prependLoop_of_holes turns externalArg hholes] at h
    cases h
  have hturns : internalArg.length < turns := by
    clear hfull
    induction turns generalizing internalArg with
    | zero => cases h
    | succ turns ih =>
      match internalArg with
      | [] => simp
      | some a :: internalArg => simpa using ih h
      | none :: internalArg =>
        have hlt := ih h
        omega
  rw [Closure.prependLoop_of_full externalArg hfull hturns] at h
  exact ⟨hfull,hturns,(Option.some.inj h).symm⟩

theorem step_mono {turns turns' : ℕ} (hle : turns ≤ turns') {closure closure' : Closure T V}
    {application : PartialApplication T V} (h : application.step turns closure = some closure') :
    application.step turns' closure = some closure' := by
  cases application with
  | appendValue argValue => exact h
  | insertThisArgValue value => exact h
  | append argValueList =>
    obtain ⟨rest,hloop,rfl⟩ := Option.map_eq_some_iff.mp h
    obtain ⟨hfull,hturns,rfl⟩ := prependLoop_some hloop
    rw [step,Closure.append,Closure.prependLoop_of_full _ hfull (Nat.lt_of_lt_of_le hturns hle)]
    rfl
  | appendTemplateArgs argTypeArray =>
    obtain ⟨rest,hloop,rfl⟩ := Option.map_eq_some_iff.mp h
    obtain ⟨hfull,hturns,rfl⟩ := prependLoop_some hloop
    rw [step,Closure.appendTemplateArgs,
      Closure.prependLoop_of_full _ hfull (Nat.lt_of_lt_of_le hturns hle)]
    rfl

variable {applications : List (PartialApplication T V)}

theorem foldlM_mono {turns turns' : ℕ} (hle : turns ≤ turns') {closure closure' : Closure T V}
    (h : applications.foldlM (step turns) closure = some closure') :
    applications.foldlM (step turns') closure = some closure' := by
  induction applications generalizing closure with
  | nil => exact h
  | cons application applications ih =>
    rw [List.foldlM_cons] at h ⊢
    obtain ⟨next,hstep,hrest⟩ := Option.bind_eq_some_iff.mp h
    exact Option.bind_eq_some_iff.mpr ⟨next,step_mono hle hstep,ih hrest⟩

theorem ends_concat {application : PartialApplication T V} {closure : Closure T V} :
    Ends (applications ++ [application]) closure ↔
      ∃ before, Ends applications before ∧ ∃ turns, application.step turns before = some closure := by
  constructor
  · rintro ⟨turns,h⟩
    rw [List.foldlM_append] at h
    obtain ⟨before,hbefore,hstep⟩ := Option.bind_eq_some_iff.mp h
    exact ⟨before,⟨turns,hbefore⟩,turns,by simpa using hstep⟩
  · rintro ⟨before,⟨turns,hbefore⟩,turns',hstep⟩
    refine ⟨max turns turns',?_⟩
    rw [List.foldlM_append]
    refine Option.bind_eq_some_iff.mpr ⟨before,foldlM_mono (Nat.le_max_left _ _) hbefore,?_⟩
    simpa using step_mono (Nat.le_max_right turns turns') hstep

theorem Ends.closure_eq {closure : Closure T V} (h : Ends applications closure) :
    closure.argValueList = supplied applications [] ∧
      closure.templateArgArray = suppliedTemplate applications [] := by
  induction applications using List.reverseRecOn generalizing closure with
  | nil =>
    obtain ⟨turns,h⟩ := h
    cases h
    exact ⟨rfl,rfl⟩
  | append_singleton applications application ih =>
    obtain ⟨before,hbefore,turns,hstep⟩ := ends_concat.mp h
    obtain ⟨hargs,htemplate⟩ := ih hbefore
    rw [supplied_concat,suppliedTemplate_concat]
    cases application with
    | appendValue argValue =>
      cases hstep
      refine ⟨?_,htemplate⟩
      simp only [Closure.appendValue,Closure.replaceEmpty_eq,through]
      rw [hargs,← supplied_eq]
    | insertThisArgValue value =>
      cases hstep
      exact ⟨congrArg (some value :: ·) hargs,htemplate⟩
    | append argValueList =>
      obtain ⟨rest,hloop,rfl⟩ := Option.map_eq_some_iff.mp hstep
      obtain ⟨hfull,-,rfl⟩ := prependLoop_some hloop
      refine ⟨?_,htemplate⟩
      simp only [through,fill_nil]
      rw [supplied_eq,← hargs,fill_of_full hfull]
    | appendTemplateArgs argTypeArray =>
      obtain ⟨rest,hloop,rfl⟩ := Option.map_eq_some_iff.mp hstep
      obtain ⟨hfull,-,rfl⟩ := prependLoop_some hloop
      refine ⟨hargs,?_⟩
      simp only [throughTemplate,fill_nil]
      rw [suppliedTemplate_eq,← htemplate,fill_of_full hfull]

end PartialApplication

end Jancy.Ct
