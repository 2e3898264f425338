import Jancy.Ct.ThunkKeys

/-! Sequences of requests for thunks: what stands in the caches, and what is made and returned. -/
namespace Jancy.Ct.Thunks

open Types

variable {m : ThunkModule} {s : FunctionMgr}

def FirstIn (m : ThunkModule) (log : List (FunctionRequest × ThunkResult)) (r : FunctionRequest) :
    Prop :=
  ∃ before result after, log = before ++ (r,result) :: after ∧
    ∀ entry ∈ before, entry.1.isDirect m = false → entry.1.key m ≠ r.key m

theorem FirstIn.append {log log' : List (FunctionRequest × ThunkResult)} {r : FunctionRequest}
    (h : FirstIn m log r) : FirstIn m (log ++ log') r := by
  obtain ⟨before,result,after,rfl,hbefore⟩ := h
  exact ⟨before,result,after ++ log',by rw [List.append_assoc,List.cons_append],hbefore⟩

def MadeFor (m : ThunkModule) (log : List (FunctionRequest × ThunkResult)) (r : PropertyRequest)
    (thunk : ThunkProperty) : Prop :=
  thunk.target = r.target ∧ (r.accessorRequests m).length = thunk.accessors.length ∧
    ∀ accessor ∈ (r.accessorRequests m).zip thunk.accessors, accessor ∈ log

theorem MadeFor.append {log log' : List (FunctionRequest × ThunkResult)} {r : PropertyRequest}
    {thunk : ThunkProperty} (h : MadeFor m log r thunk) : MadeFor m (log ++ log') r thunk :=
  ⟨h.1,h.2.1,fun accessor hmem => List.mem_append_left _ (h.2.2 accessor hmem)⟩

namespace FunctionMgr

structure Inv (m : ThunkModule) (s : FunctionMgr) : Prop where
  functions : Keyed.Consistent (FunctionRequest.key m)
    (fun r thunk => thunk = r.thunk ∧ FirstIn m s.functionLog r) s.thunkFunctionMap
    fun r i => (r,.thunk i) ∈ s.functionLog
  properties : Keyed.Consistent (PropertyRequest.key m) (MadeFor m s.functionLog)
    s.thunkPropertyMap fun r i => (r,.thunk i) ∈ s.propertyLog
  functionDirect : ∀ entry ∈ s.functionLog, entry.2 = .target ↔ entry.1.isDirect m = true
  propertyDirect : ∀ entry ∈ s.propertyLog, entry.2 = .target ↔ entry.1.isDirect m = true

theorem initial_inv (m : ThunkModule) : initial.Inv m where
  functions := Keyed.Consistent.initial.congr fun _ _ => iff_false_intro List.not_mem_nil
  properties := Keyed.Consistent.initial.congr fun _ _ => iff_false_intro List.not_mem_nil
  functionDirect := fun _ hmem => absurd hmem List.not_mem_nil
  propertyDirect := fun _ hmem => absurd hmem List.not_mem_nil

variable {r : FunctionRequest}

section

variable (h : s.Inv m)

include h

theorem Inv.function_thunk {result : ThunkResult} (hmem : (r,result) ∈ s.functionLog)
    (hdirect : r.isDirect m = false) :
    ∃ i, result = .thunk i := by
  cases result with
  | target => exact absurd ((h.functionDirect _ hmem).mp rfl) (by rw [hdirect]; decide)
  | thunk i => exact ⟨i,rfl⟩

theorem Inv.function_notDirect {i : ℕ} (hmem : (r,.thunk i) ∈ s.functionLog) :
    r.isDirect m = false :=
  Bool.eq_false_iff.mpr fun hdirect => nomatch (h.functionDirect _ hmem).mpr hdirect

theorem Inv.property_thunk {r : PropertyRequest} {result : ThunkResult}
    (hmem : (r,result) ∈ s.propertyLog) (hdirect : r.isDirect m = false) :
    ∃ i, result = .thunk i := by
  cases result with
  | target => exact absurd ((h.propertyDirect _ hmem).mp rfl) (by rw [hdirect]; decide)
  | thunk i => exact ⟨i,rfl⟩

theorem Inv.property_notDirect {r : PropertyRequest} {i : ℕ} (hmem : (r,.thunk i) ∈ s.propertyLog) :
    r.isDirect m = false :=
  Bool.eq_false_iff.mpr fun hdirect => nomatch (h.propertyDirect _ hmem).mpr hdirect

theorem Inv.function_miss {k : List Char} (hfind : Keyed.find s.thunkFunctionMap k = none) :
    ∀ entry ∈ s.functionLog, entry.1.isDirect m = false → entry.1.key m ≠ k := by
  rintro ⟨r,result⟩ hmem hdirect rfl
  obtain ⟨i,rfl⟩ := h.function_thunk hmem hdirect
  obtain ⟨thunk,hthunk⟩ := h.functions.logged r i hmem
  exact Keyed.find_none hfind (List.mem_map_of_mem (List.mem_of_getElem? hthunk))

theorem Inv.property_miss {k : List Char} (hfind : Keyed.find s.thunkPropertyMap k = none) :
    ∀ entry ∈ s.propertyLog, entry.1.isDirect m = false → entry.1.key m ≠ k := by
  rintro ⟨r,result⟩ hmem hdirect rfl
  obtain ⟨i,rfl⟩ := h.property_thunk hmem hdirect
  obtain ⟨thunk,hthunk⟩ := h.properties.logged r i hmem
  exact Keyed.find_none hfind (List.mem_map_of_mem (List.mem_of_getElem? hthunk))

end

theorem mem_log_append {R : Type*} {log : List (R × ThunkResult)} {r r' : R} {i i' : ℕ} :
    (r',ThunkResult.thunk i') ∈ log ++ [(r,.thunk i)] ↔
      (r',.thunk i') ∈ log ∨ r' = r ∧ i' = i := by
  rw [List.mem_append,List.mem_singleton,Prod.mk.injEq,ThunkResult.thunk.injEq]

section

variable (h : s.Inv m)

include h

theorem Inv.getDirectThunkFunction (r : FunctionRequest) :
    (s.getDirectThunkFunction m r).2.Inv m ∧
      (s.getDirectThunkFunction m r).2.functionLog =
        s.functionLog ++ [(r,(s.getDirectThunkFunction m r).1)] ∧
      (s.getDirectThunkFunction m r).2.thunkPropertyMap = s.thunkPropertyMap ∧
      (s.getDirectThunkFunction m r).2.propertyLog = s.propertyLog := by
  have hmono : ∀ result : ThunkResult, ∀ r' thunk,
      (thunk = FunctionRequest.thunk r' ∧ FirstIn m s.functionLog r') →
        thunk = r'.thunk ∧ FirstIn m (s.functionLog ++ [(r,result)]) r' :=
    fun _ _ _ hmade => ⟨hmade.1,hmade.2.append⟩
  have hproperties : ∀ result : ThunkResult, Keyed.Consistent (PropertyRequest.key m)
      (MadeFor m (s.functionLog ++ [(r,result)])) s.thunkPropertyMap
      fun r i => (r,.thunk i) ∈ s.propertyLog :=
    fun _ => h.properties.mono fun _ _ hmade => hmade.append
  have hdirects : ∀ result : ThunkResult, (result = .target ↔ r.isDirect m = true) →
      ∀ entry ∈ s.functionLog ++ [(r,result)], entry.2 = .target ↔ entry.1.isDirect m = true := by
    intro result hresult entry hmem
    rcases List.mem_append.mp hmem with hmem | hmem
    · exact h.functionDirect entry hmem
    · rw [List.mem_singleton.mp hmem]
      exact hresult
  unfold FunctionMgr.getDirectThunkFunction
  split_ifs with hdirect
  · refine ⟨⟨(h.functions.mono (hmono .target)).congr fun r' i => ?_,hproperties _,
      hdirects _ (iff_of_true rfl hdirect),h.propertyDirect⟩,rfl,rfl,rfl⟩
    rw [List.mem_append,List.mem_singleton,Prod.mk.injEq]
    exact or_iff_left fun hand => nomatch hand.2
  · have hthunk : ∀ i : ℕ, ThunkResult.thunk i = .target ↔ r.isDirect m = true :=
      fun _ => iff_of_false nofun hdirect
    cases hfind : Keyed.find s.thunkFunctionMap (r.key m) with
    | some i =>
      exact ⟨⟨((h.functions.mono (hmono (.thunk i))).hit hfind).congr fun _ _ => mem_log_append,
        hproperties _,hdirects _ (hthunk i),h.propertyDirect⟩,rfl,rfl,rfl⟩
    | none =>
      have hfirst : FirstIn m (s.functionLog ++ [(r,.thunk s.thunkFunctionMap.length)]) r :=
        ⟨s.functionLog,_,[],rfl,h.function_miss hfind⟩
      exact ⟨⟨((h.functions.mono (hmono _)).miss hfind ⟨rfl,hfirst⟩).congr
        fun _ _ => mem_log_append,hproperties _,hdirects _ (hthunk _),h.propertyDirect⟩,rfl,rfl,rfl⟩

theorem Inv.getAccessors (requests : List FunctionRequest) :
    (s.getAccessors m requests).2.Inv m ∧
      requests.length = (s.getAccessors m requests).1.length ∧
      (s.getAccessors m requests).2.functionLog =
        s.functionLog ++ requests.zip (s.getAccessors m requests).1 ∧
      (s.getAccessors m requests).2.thunkPropertyMap = s.thunkPropertyMap ∧
      (s.getAccessors m requests).2.propertyLog = s.propertyLog := by
  induction requests generalizing s with
  | nil => exact ⟨h,rfl,(List.append_nil _).symm,rfl,rfl⟩
  | cons r requests ih =>
    obtain ⟨hinv,hlog,hmap,hproperties⟩ := h.getDirectThunkFunction r
    obtain ⟨hinv',hlength,hlog',hmap',hproperties'⟩ := ih hinv
    refine ⟨hinv',congrArg (· + 1) hlength,?_,hmap'.trans hmap,hproperties'.trans hproperties⟩
    rw [FunctionMgr.getAccessors,hlog',hlog,List.append_assoc]
    rfl

/-- What one request for a property does: its accessors are asked for where its key is not there. -/
theorem Inv.getDirectThunkProperty (r : PropertyRequest) :
    (s.getDirectThunkProperty m r).2.Inv m ∧
      (∃ result, (s.getDirectThunkProperty m r).2.propertyLog = s.propertyLog ++ [(r,result)]) ∧
      (s.getDirectThunkProperty m r).2.functionLog.map Prod.fst =
        s.functionLog.map Prod.fst ++
          if r.isDirect m = true ∨ (Keyed.find s.thunkPropertyMap (r.key m)).isSome = true then []
          else r.accessorRequests m := by
  have hdirects : ∀ result : ThunkResult, (result = .target ↔ r.isDirect m = true) →
      ∀ entry ∈ s.propertyLog ++ [(r,result)], entry.2 = .target ↔ entry.1.isDirect m = true := by
    intro result hresult entry hmem
    rcases List.mem_append.mp hmem with hmem | hmem
    · exact h.propertyDirect entry hmem
    · rw [List.mem_singleton.mp hmem]
      exact hresult
  unfold FunctionMgr.getDirectThunkProperty
  split_ifs with hdirect hfound hfound
  · refine ⟨⟨h.functions,h.properties.congr fun r' i => ?_,h.functionDirect,
      hdirects _ (iff_of_true rfl hdirect)⟩,⟨_,rfl⟩,(List.append_nil _).symm⟩
    rw [List.mem_append,List.mem_singleton,Prod.mk.injEq]
    exact or_iff_left fun hand => nomatch hand.2
  · exact absurd (Or.inl hdirect) hfound
  · have hthunk : ∀ i : ℕ, ThunkResult.thunk i = .target ↔ r.isDirect m = true :=
      fun _ => iff_of_false nofun hdirect
    obtain ⟨i,hfind⟩ := Option.isSome_iff_exists.mp (hfound.resolve_left hdirect)
    rw [hfind]
    exact ⟨⟨h.functions,(h.properties.hit hfind).congr fun _ _ => mem_log_append,h.functionDirect,
      hdirects _ (hthunk i)⟩,⟨_,rfl⟩,(List.append_nil _).symm⟩
  · have hthunk : ∀ i : ℕ, ThunkResult.thunk i = .target ↔ r.isDirect m = true :=
      fun _ => iff_of_false nofun hdirect
    have hfind : Keyed.find s.thunkPropertyMap (r.key m) = none :=
      Option.not_isSome_iff_eq_none.mp fun hsome => hfound (Or.inr hsome)
    rw [hfind]
    obtain ⟨hinv,hlength,hlog,hmap,hproperties⟩ := h.getAccessors (r.accessorRequests m)
    have hmade : MadeFor m (s.getAccessors m (r.accessorRequests m)).2.functionLog r
        ⟨r.target,(s.getAccessors m (r.accessorRequests m)).1⟩ := by
      refine ⟨rfl,hlength,fun accessor hmem => ?_⟩
      rw [hlog]
      exact List.mem_append_right _ hmem
    refine ⟨⟨hinv.functions,?_,hinv.functionDirect,hdirects _ (hthunk _)⟩,⟨_,rfl⟩,?_⟩
    · have hmono : Keyed.Consistent (PropertyRequest.key m)
          (MadeFor m (s.getAccessors m (r.accessorRequests m)).2.functionLog) s.thunkPropertyMap
          fun r i => (r,.thunk i) ∈ s.propertyLog := by
        have hprops := hinv.properties
        rw [hmap,hproperties] at hprops
        exact hprops
      exact (hmono.miss hfind hmade).congr fun _ _ => mem_log_append
    · show (s.getAccessors m (r.accessorRequests m)).2.functionLog.map Prod.fst = _
      rw [hlog,List.map_append,List.map_fst_zip (Nat.le_of_eq hlength)]

theorem Inv.run (requests : List ThunkRequest) : (s.run m requests).Inv m := by
  induction requests generalizing s with
  | nil => exact h
  | cons request requests ih =>
    cases request with
    | function r => exact ih (h.getDirectThunkFunction r).1
    | property r => exact ih (h.getDirectThunkProperty r).1

theorem Inv.run_propertyLog (requests : List ThunkRequest) :
    (s.run m requests).propertyLog.map Prod.fst =
      s.propertyLog.map Prod.fst ++ Thunks.properties requests := by
  induction requests generalizing s with
  | nil => exact (List.append_nil _).symm
  | cons request requests ih =>
    cases request with
    | function r =>
      obtain ⟨hinv,-,-,hlog⟩ := h.getDirectThunkFunction r
      exact (ih hinv).trans (by rw [hlog]; rfl)
    | property r =>
      obtain ⟨hinv,⟨result,hlog⟩,-⟩ := h.getDirectThunkProperty r
      refine (ih hinv).trans ?_
      rw [hlog,List.map_append,List.append_assoc]
      rfl

theorem Inv.run_functionLog {Asked : PropertyRequest → Prop}
    (hsame : ∀ r r', Asked r → Asked r' → r.isDirect m = false → r'.isDirect m = false →
      r.key m = r'.key m → r.Same r') {earlier : List PropertyRequest}
    (hlogged : ∀ r, r ∈ earlier ↔ r ∈ s.propertyLog.map Prod.fst)
    (hearlier : ∀ r ∈ earlier, Asked r) {requests : List ThunkRequest}
    (hasked : ∀ r ∈ Thunks.properties requests, Asked r) :
    (s.run m requests).functionLog.map Prod.fst =
      s.functionLog.map Prod.fst ++ made m earlier requests := by
  induction requests generalizing s earlier with
  | nil => exact (List.append_nil _).symm
  | cons request requests ih =>
    cases request with
    | function r =>
      obtain ⟨hinv,hlog,-,hproperties⟩ := h.getDirectThunkFunction r
      refine (ih hinv (by rw [hproperties]; exact hlogged) hearlier hasked).trans ?_
      rw [hlog,List.map_append,List.append_assoc]
      rfl
    | property r =>
      obtain ⟨hinv,⟨result,hlog⟩,hfunctions⟩ := h.getDirectThunkProperty r
      obtain ⟨haskedr,haskedrest⟩ := List.forall_mem_cons.mp hasked
      have hcons : ∀ r', r' ∈ r :: earlier ↔
          r' ∈ (s.getDirectThunkProperty m r).2.propertyLog.map Prod.fst := by
        intro r'
        rw [hlog,List.map_append,List.mem_append,List.mem_cons,hlogged r',or_comm]
        exact or_congr_right List.mem_singleton.symm
      -- the key of a property is there exactly if the same has been asked for
      have hiff : (r.isDirect m = true ∨
          (Keyed.find s.thunkPropertyMap (r.key m)).isSome = true) ↔
            (r.isDirect m = true ∨ ∃ r' ∈ earlier, r'.Same r) := by
        cases hdirect : r.isDirect m with
        | true => exact iff_of_true (Or.inl rfl) (Or.inl rfl)
        | false =>
          refine or_congr_right ⟨fun hsome => ?_,?_⟩
          · obtain ⟨i,hfind⟩ := Option.isSome_iff_exists.mp hsome
            obtain ⟨thunk,hthunk⟩ := Keyed.find_some hfind
            obtain ⟨r',hr',hkey,-⟩ := h.properties.made i _ thunk hthunk
            have hmem := (hlogged r').mpr (List.mem_map_of_mem hr')
            exact ⟨r',hmem,hsame r' r (hearlier r' hmem) haskedr (h.property_notDirect hr') hdirect
              hkey⟩
          · rintro ⟨r',hmem,hr'⟩
            obtain ⟨⟨r'',result'⟩,hentry,rfl⟩ := List.mem_map.mp ((hlogged r').mp hmem)
            refine Option.isSome_iff_ne_none.mpr fun hfind => ?_
            exact h.property_miss hfind _ hentry (hr'.isDirect_eq.trans hdirect) hr'.key_eq
      refine (ih hinv hcons (List.forall_mem_cons.mpr ⟨haskedr,hearlier⟩) haskedrest).trans ?_
      rw [hfunctions,made,List.append_assoc]
      simp only [hiff]

theorem Inv.sameFunctions_iff :
    (∀ r r' i, (r,.thunk i) ∈ s.functionLog → (r',.thunk i) ∈ s.functionLog → r.Same r') ↔
      ∀ r ∈ s.functionLog.map Prod.fst, ∀ r' ∈ s.functionLog.map Prod.fst, r.isDirect m = false →
        r'.isDirect m = false → r.Apart m r' := by
  constructor
  · intro hshared r hr r' hr' hdirect hdirect'
    obtain ⟨⟨_,result⟩,hmem,rfl⟩ := List.mem_map.mp hr
    obtain ⟨⟨_,result'⟩,hmem',rfl⟩ := List.mem_map.mp hr'
    obtain ⟨i,rfl⟩ := h.function_thunk hmem hdirect
    obtain ⟨i',rfl⟩ := h.function_thunk hmem' hdirect'
    refine FunctionRequest.apart_iff.mpr fun hkey => hshared _ _ i hmem ?_
    rw [h.functions.idx_eq hmem hmem' hkey]
    exact hmem'
  · intro hapart r r' i hmem hmem'
    have happ := hapart r (List.mem_map_of_mem hmem) r' (List.mem_map_of_mem hmem')
      (h.function_notDirect hmem) (h.function_notDirect hmem')
    exact FunctionRequest.apart_iff.mp happ (h.functions.key_eq hmem hmem')

theorem Inv.sameProperties_iff :
    (∀ r r' i, (r,.thunk i) ∈ s.propertyLog → (r',.thunk i) ∈ s.propertyLog → r.Same r') ↔
      ∀ r ∈ s.propertyLog.map Prod.fst, ∀ r' ∈ s.propertyLog.map Prod.fst, r.isDirect m = false →
        r'.isDirect m = false → r.Apart m r' := by
  constructor
  · intro hshared r hr r' hr' hdirect hdirect'
    obtain ⟨⟨_,result⟩,hmem,rfl⟩ := List.mem_map.mp hr
    obtain ⟨⟨_,result'⟩,hmem',rfl⟩ := List.mem_map.mp hr'
    obtain ⟨i,rfl⟩ := h.property_thunk hmem hdirect
    obtain ⟨i',rfl⟩ := h.property_thunk hmem' hdirect'
    refine PropertyRequest.apart_iff.mpr fun hkey => hshared _ _ i hmem ?_
    rw [h.properties.idx_eq hmem hmem' hkey]
    exact hmem'
  · intro hapart r r' i hmem hmem'
    have happ := hapart r (List.mem_map_of_mem hmem) r' (List.mem_map_of_mem hmem')
      (h.property_notDirect hmem) (h.property_notDirect hmem')
    exact PropertyRequest.apart_iff.mp happ (h.properties.key_eq hmem hmem')

theorem Inv.first_thunk {before : List FunctionRequest} {after : List FunctionRequest}
    (hlog : s.functionLog.map Prod.fst = before ++ r :: after) (hdirect : r.isDirect m = false)
    (hbefore : ∀ r' ∈ before, ¬r'.Same r)
    (hshared : ∀ r r' i, (r,.thunk i) ∈ s.functionLog → (r',.thunk i) ∈ s.functionLog →
      r.Same r') :
    ∃ i key, (r,.thunk i) ∈ s.functionLog ∧ s.thunkFunctionMap[i]? = some (key,r.thunk) := by
  obtain ⟨before,rest,hsplit,rfl,hrest⟩ := List.map_eq_append_iff.mp hlog
  obtain ⟨⟨_,result⟩,after,rfl,rfl,rfl⟩ := List.map_eq_cons_iff.mp hrest
  have hmem : (_,result) ∈ s.functionLog := hsplit ▸ List.mem_append_right _ List.mem_cons_self
  obtain ⟨i,rfl⟩ := h.function_thunk hmem hdirect
  obtain ⟨thunk,hthunk⟩ := h.functions.logged _ i hmem
  obtain ⟨q,hq,hkey,rfl,before',result',after',hsplit',hfirst⟩ := h.functions.made i _ thunk hthunk
  have hsame := hshared q _ i hq hmem
  -- neither of the two stands before the other
  rcases List.append_eq_append_iff.mp (hsplit.symm.trans hsplit') with
    ⟨mid,hbefore',hmid⟩ | ⟨mid,hbefore',hmid⟩
  · cases mid with
    | nil =>
      cases hmid
      exact ⟨i,_,hmem,hthunk⟩
    | cons entry mid =>
      cases hmid
      refine absurd hkey.symm (hfirst _ ?_ hdirect)
      rw [hbefore']
      exact List.mem_append_right _ List.mem_cons_self
  · cases mid with
    | nil =>
      cases hmid
      exact ⟨i,_,hmem,hthunk⟩
    | cons entry mid =>
      cases hmid
      refine absurd hsame (hbefore q ?_)
      rw [hbefore',List.map_append]
      exact List.mem_append_right _ List.mem_cons_self

end

/-- The thunks of a sequence are what is expected of them exactly under the condition. -/
theorem exact_iff_sound (m : ThunkModule) (requests : List ThunkRequest) :
    (initial.run m requests).Exact m ↔ Sound m requests := by
  have hinv := (initial_inv m).run requests
  have hproperties : (initial.run m requests).propertyLog.map Prod.fst =
      Thunks.properties requests := (initial_inv m).run_propertyLog requests
  have hfunctions : (∀ r ∈ Thunks.properties requests, ∀ r' ∈ Thunks.properties requests,
      r.isDirect m = false → r'.isDirect m = false → r.Apart m r') →
      (initial.run m requests).functionLog.map Prod.fst = made m [] requests := by
    intro hapart
    have hsame : ∀ r r', r ∈ Thunks.properties requests → r' ∈ Thunks.properties requests →
        r.isDirect m = false → r'.isDirect m = false → r.key m = r'.key m → r.Same r' :=
      fun r r' hr hr' hdirect hdirect' =>
        PropertyRequest.apart_iff.mp (hapart r hr r' hr' hdirect hdirect')
    exact (initial_inv m).run_functionLog hsame
      (fun r => iff_of_false List.not_mem_nil List.not_mem_nil)
      (fun r hr => absurd hr List.not_mem_nil) fun r hr => hr
  have hsameProperties := hinv.sameProperties_iff
  have hsameFunctions := hinv.sameFunctions_iff
  rw [hproperties] at hsameProperties
  generalize initial.run m requests = s at *
  constructor
  · intro h
    have hapart := hsameProperties.mp h.properties
    have hmade := hfunctions hapart
    rw [hmade] at hsameFunctions
    refine ⟨hsameFunctions.mp h.functions,hapart,fun before r after hsplit hdirect hbefore => ?_⟩
    obtain ⟨i,key,hmem,hthunk⟩ := hinv.first_thunk (hmade.trans hsplit) hdirect hbefore h.functions
    obtain ⟨key',thunk,hthunk',-,-,hcompiles⟩ := h.calls r i hmem
    cases hthunk.symm.trans hthunk'
    exact (r.thunk.compiles_iff m).mp hcompiles
  · intro h
    have hmade := hfunctions h.properties
    rw [hmade] at hsameFunctions
    have hshared := hsameFunctions.mpr h.functions
    have hsharedProperties := hsameProperties.mpr h.properties
    refine ⟨hshared,hsharedProperties,fun r i hmem => ?_,fun r i hmem => ?_⟩
    · obtain ⟨thunk,hthunk⟩ := hinv.functions.logged r i hmem
      obtain ⟨q,hq,hkey,rfl,hfirst⟩ := hinv.functions.made i _ thunk hthunk
      have hsignature := (thunkSignature_inj.mp hkey).2.2
      refine ⟨_,_,hthunk,(hshared q r i hq hmem).1,hsignature,(q.thunk.compiles_iff m).mpr ?_⟩
      obtain ⟨before,result,after,hsplit,hbefore⟩ := hfirst
      refine h.calls (before.map Prod.fst) q (after.map Prod.fst) ?_ (hinv.function_notDirect hq) ?_
      · rw [← hmade,hsplit,List.map_append]
        rfl
      · intro r' hr' hsame
        obtain ⟨entry,hentry,rfl⟩ := List.mem_map.mp hr'
        exact hbefore entry hentry (hsame.isDirect_eq.trans (hinv.function_notDirect hq))
          hsame.key_eq
    · obtain ⟨thunk,hthunk⟩ := hinv.properties.logged r i hmem
      obtain ⟨q,hq,-,htarget,hlength,haccessors⟩ := hinv.properties.made i _ thunk hthunk
      have hsame := hsharedProperties q r i hq hmem
      exact ⟨_,thunk,q,hthunk,htarget.trans hsame.1,hsame,hlength,haccessors⟩

/-- Two functions a multiple of 2^32 apart, and a virtual method without arguments. -/
def sampleModule : ThunkModule where
  function
    | 0 => ⟨0x100004000#64,.mk {} .jnccall_gcc64 (.primitive .void) .null .nil none,false,
        fun _ => false⟩
    | 1 => ⟨0x200004000#64,.mk {} .jnccall_gcc64 (.primitive .void) .null .nil none,false,
        fun _ => false⟩
    | _ => ⟨0x100008000#64,.mk {} .jnccall_gcc64 (.primitive .void) .null
        (.cons true abstractClassPtr .nil) none,true,fun _ => false⟩
  property _ := ⟨0,.mk false false (.mk {} .jnccall_gcc64 (.primitive .int32) .null .nil none) .nil,
    0,false,fun _ => none⟩
  variableAddress _ := 0
  castOperator _ _ := true

/-- A thunk that takes an object and a number. -/
def sampleType : FunctionTy :=
  .mk {} .jnccall_gcc64 (.primitive .void) .null
    (.cons true abstractClassPtr (.cons false (.primitive .int32) .nil)) none

/-- The second function gets the thunk of the first; and the thunk of the virtual method is compiled
although the method is not called in it. -/
theorem not_always_exact :
    ¬(initial.run sampleModule [.function ⟨0,sampleType,false⟩,.function ⟨1,sampleType,false⟩]).Exact
        sampleModule ∧
      ¬(initial.run sampleModule [.function ⟨2,sampleType,false⟩]).Exact sampleModule := by
  constructor
  · intro h
    have hlog : (initial.run sampleModule
        [.function ⟨0,sampleType,false⟩,.function ⟨1,sampleType,false⟩]).functionLog =
          [(⟨0,sampleType,false⟩,.thunk 0),(⟨1,sampleType,false⟩,.thunk 0)] := rfl
    have hsame := h.functions ⟨0,sampleType,false⟩ ⟨1,sampleType,false⟩ 0
      (hlog ▸ List.mem_cons_self) (hlog ▸ List.mem_cons_of_mem _ List.mem_cons_self)
    exact absurd hsame.1 (by decide)
  · intro h
    have hlog : (initial.run sampleModule [.function ⟨2,sampleType,false⟩]).functionLog =
        [(⟨2,sampleType,false⟩,.thunk 0)] := rfl
    obtain ⟨key,thunk,hthunk,-,-,hcompiles⟩ := h.calls ⟨2,sampleType,false⟩ 0
      (hlog ▸ List.mem_cons_self)
    cases hthunk
    have hnone := hcompiles.2 fun hcallable => nomatch hcallable.2.1
    cases hnone

end FunctionMgr
end Jancy.Ct.Thunks
