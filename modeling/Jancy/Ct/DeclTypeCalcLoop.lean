import Jancy.Ct.DeclTypeCalcInsideOut

/-! The loop over the suffixes stops at its end marker unless a stripped dimension was taken before,
and when a declarator that is not rejected is read inside out. -/
namespace Jancy.Ct.DeclTypeCalc
namespace State

variable {s s' : State} {env : Env}

def Reports (result : Except LoopError State) : Prop := ∃ error, result = .error (.reported error)

theorem lift_cases (x : Calc) : Reports (lift x) ∨ ∃ s, x = .ok s ∧ lift x = .ok s := by
  cases x with
  | ok s => exact Or.inr ⟨s,rfl,rfl⟩
  | error error => exact Or.inl ⟨error,rfl⟩

theorem reports_bind {x : Except LoopError State} {f : State → Except LoopError State}
    (h : Reports x) : Reports (x >>= f) := by
  obtain ⟨error,rfl⟩ := h
  exact ⟨error,rfl⟩

/-- Only the last suffix, which is the first of the declarator, can be that of a getter. -/
def GetterLast (suffixes : List Suffix) : Prop := ∀ suffix ∈ suffixes.dropLast, suffix.isGetter = false

theorem GetterLast.tail {suffix : Suffix} {suffixes : List Suffix}
    (h : GetterLast (suffix :: suffixes)) : GetterLast suffixes := by
  intro other hother
  cases suffixes with
  | nil => simp at hother
  | cons next suffixes => exact h other (List.mem_cons_of_mem _ hother)

theorem GetterLast.of_append {taken suffixes : List Suffix} (h : GetterLast (taken ++ suffixes)) :
    GetterLast suffixes := by
  induction taken with
  | nil => exact h
  | cons suffix taken ih => exact ih h.tail

theorem GetterLast.eq_nil {suffix : Suffix} {suffixes : List Suffix}
    (h : GetterLast (suffix :: suffixes)) (hgetter : suffix.isGetter) : suffixes = [] := by
  cases suffixes with
  | nil => rfl
  | cons next suffixes =>
    have hno := h suffix List.mem_cons_self
    simp [hgetter] at hno

/-- With the end marker ahead, the loop takes one suffix at a time until it is there. -/
theorem suffixLoop_cases {last : ℕ} (n : ℕ) (hn : s.suffixes.length < n)
    (hlast : last ≤ s.suffixes.length) (hgetter : GetterLast s.suffixes) :
    Reports (suffixLoop env last n s) ∨
      ∃ s', suffixLoop env last n s = .ok s' ∧ BuildsTo s s' ∧ s'.suffixes.length = last := by
  induction n generalizing s with
  | zero => omega
  | succ n ih =>
    unfold suffixLoop
    split
    case isTrue heq => exact Or.inr ⟨s,rfl,.refl s,heq⟩
    case isFalse hne =>
      -- the rest of the loop, after one suffix is taken
      have hrest {mid : State} {suffix : Suffix} (hbuilds : BuildsTo s mid)
          (hfirst : s.suffixes = suffix :: mid.suffixes) :
          Reports (suffixLoop env last n mid) ∨
            ∃ s', suffixLoop env last n mid = .ok s' ∧ BuildsTo s s' ∧
              s'.suffixes.length = last := by
        have hlength : s.suffixes.length = mid.suffixes.length + 1 := by rw [hfirst]; rfl
        rw [hfirst] at hgetter
        rcases ih (by omega) (by omega) hgetter.tail with herror | ⟨s',hok,hbuilds',hend⟩
        · exact Or.inl herror
        · exact Or.inr ⟨s',hok,hbuilds.trans hbuilds',hend⟩
      split
      case h_1 hnil =>
        rw [hnil] at hne hlast
        exact absurd (Nat.le_zero.1 hlast).symm hne
      case h_2 suffix suffixes hsuffixes =>
        rcases lift_cases s.getArrayType with herror | ⟨mid,hmid,hok⟩
        · exact Or.inl (reports_bind herror)
        · obtain ⟨suffix,hfirst,hbuilds,-⟩ := getArrayType_ok hmid
          rw [hok]
          exact hrest hbuilds hfirst
      case h_3 suffix suffixes hsuffixes =>
        split
        case isTrue hfunction =>
          rw [hsuffixes] at hgetter
          rw [if_pos (hgetter.eq_nil hfunction.1)]
          have hgetterOf := builds_build s .getterOfFunction (some (.function suffix)) ∅ suffixes
            hsuffixes (Finset.empty_subset _) nofun ⟨hfunction.2,rfl⟩
          exact hrest ⟨_,hgetterOf⟩ hsuffixes
        case isFalse =>
          rcases lift_cases (s.getFunctionType env true) with herror | ⟨mid,hmid,hok⟩
          · exact Or.inl (reports_bind herror)
          · obtain ⟨hbuilds,-,hrests,-⟩ := getFunctionType_ok hmid
            have hfirst : s.suffixes = .function suffix :: mid.suffixes := by
              rw [hrests,hsuffixes]
              rfl
            rw [hok]
            exact hrest hbuilds hfirst

theorem finalFlags_ok (s : State) (hasFlags : Bool) :
    BuildsTo s (s.finalFlags hasFlags) ∧ (s.finalFlags hasFlags).suffixes = s.suffixes := by
  unfold finalFlags
  split
  · exact ⟨takeFlags_ok hasFlags (by decide),takeFlags_suffixes hasFlags _⟩
  · exact ⟨.refl s,rfl⟩
  · exact ⟨takeFlags_ok hasFlags (by decide),takeFlags_suffixes hasFlags _⟩

end State

namespace Declarator

open State

def rest (d : Declarator) : List Suffix :=
  let (type,suffixes) := prefixesRest d.baseType d.suffixList.reverse d.pointerPrefixList
  ownRest type d.typeModifiers suffixes

/-- The declarator is read inside out, without its first dimension where that is stripped: its
suffixes from the last to the first, its modifiers once each, and `unsigned` as the counterpart. -/
structure ReadsInsideOut (d : Declarator) (stripped : Bool) (r : State) : Prop where
  suffixes : r.ctors.filterMap (·.suffix) = (d.suffixList.drop (if stripped then 1 else 0)).reverse
  modifiers : ∃ prefixes own, r.ctors = prefixes.flatten ++ own ∧
    List.Forall₂ PrefixReads d.pointerPrefixList prefixes ∧ TakesModifiers d.typeModifiers own
  masked : ∀ ctor ∈ r.ctors, ctor.modifiers ⊆ ctor.kind.mask
  type : Reads UnsignedInteger d.baseType r.ctors r.type

def Meets (d : Declarator) (env : Env) : Prop :=
  Reports (d.calcType env) ∨
    ∃ stripped r, d.strip env = .ok stripped ∧ d.calcType env = .ok r ∧ d.ReadsInsideOut stripped r

/-- The dimension that is stripped is among the suffixes that are taken before the loop. -/
def TakesStripped (d : Declarator) (env : Env) : Prop := d.strip env = .ok true ∧ d.rest = []

/-- A prefix or the declarator itself is `unsigned`. -/
def UsesUnsigned (d : Declarator) : Prop :=
  (∃ modifiers ∈ d.pointerPrefixList, .unsigned ∈ modifiers) ∨ .unsigned ∈ d.typeModifiers

theorem beforeLoop_ok {d : Declarator} {env : Env} {s : State} (h : d.beforeLoop env = .ok s) :
    ∃ prefixes own, Adds ⟨d.baseType,d.suffixList.reverse,∅,[]⟩ s (prefixes.flatten ++ own) ∧
      List.Forall₂ PrefixReads d.pointerPrefixList prefixes ∧
      (∀ modifier, takenBy modifier own + (if modifier ∈ s.modifiers then 1 else 0) =
        if modifier ∈ d.typeModifiers then 1 else 0) ∧
      s.suffixes = d.rest := by
  obtain ⟨mid,hmid,h⟩ := ok_of_bind h
  obtain ⟨prefixes,hadds,hprefixes,hrest⟩ := pointerPrefixes_ok hmid
  obtain ⟨⟨own,hbuilds⟩,hown⟩ := typeModifiers_ok h
  have hadds' : Adds mid s own := ⟨hbuilds.added,hbuilds.taken,hbuilds.masked,hbuilds.reads⟩
  refine ⟨prefixes,own,hadds.trans hadds',hprefixes,hbuilds.counted,?_⟩
  rw [hown,rest]
  simp only [← hrest]

theorem getterLast_reverse (d : Declarator) : GetterLast d.suffixList.reverse := by
  intro suffix hsuffix
  rw [List.dropLast_reverse] at hsuffix
  exact d.getter_head suffix (List.mem_reverse.1 hsuffix)

/-- The three ways in which the calculation ends. -/
theorem calcType_cases (d : Declarator) (env : Env) :
    Reports (d.calcType env) ∨
      (d.TakesStripped env ∧ d.calcType env = .error .stepPastEnd) ∨
      ¬ d.TakesStripped env ∧ ∃ stripped r, d.strip env = .ok stripped ∧ d.calcType env = .ok r ∧
        ∃ prefixes own, Adds ⟨d.baseType,d.suffixList.reverse,∅,[]⟩ r (prefixes.flatten ++ own) ∧
          List.Forall₂ PrefixReads d.pointerPrefixList prefixes ∧
          TakesModifiers d.typeModifiers own ∧
          r.suffixes.length = if stripped then 1 else 0 := by
  unfold calcType
  cases hstrip : d.strip env with
  | error error => exact Or.inl ⟨error,rfl⟩
  | ok stripped =>
    rcases lift_cases (d.beforeLoop env) with herror | ⟨s,hs,hok⟩
    · exact Or.inl (reports_bind herror)
    obtain ⟨prefixes,own,hadds,hprefixes,hcounted,hrest⟩ := beforeLoop_ok hs
    simp only [hok,bind,Except.bind]
    by_cases htaken : stripped = true ∧ s.suffixes = []
    · refine Or.inr (Or.inl ⟨⟨by rw [hstrip,htaken.1],by rw [← hrest,htaken.2]⟩,?_⟩)
      simp [htaken.1,htaken.2,suffixLoop]
    have hnot : ¬ d.TakesStripped env := fun h =>
      htaken ⟨Except.ok.inj (hstrip.symm.trans h.1),hrest.trans h.2⟩
    have hlast : (if stripped then 1 else 0) ≤ s.suffixes.length := by
      cases hsuffixes : s.suffixes with
      | nil => simp_all
      | cons suffix suffixes => split <;> simp
    have hgetter : GetterLast s.suffixes := by
      have hreverse := d.getterLast_reverse
      rw [show d.suffixList.reverse = _ from hadds.taken] at hreverse
      exact hreverse.of_append
    rcases @suffixLoop_cases s env _ (s.suffixes.length + 1) (Nat.lt_succ_self _) hlast hgetter
      with ⟨error,herror⟩ | ⟨s',hok',⟨loop,hloop⟩,hend⟩
    · exact Or.inl ⟨error,by rw [herror]⟩
    rw [hok']
    obtain ⟨⟨flags,hflags⟩,hsuffixes⟩ := finalFlags_ok s' d.hasFlags
    rcases lift_cases (s'.finalFlags d.hasFlags).checkUnusedModifiers with herror | ⟨r,hr,hok''⟩
    · exact Or.inl herror
    obtain ⟨rfl,hempty⟩ := checkUnusedModifiers_ok hr
    have hbuilds := hloop.trans hflags
    refine Or.inr (Or.inr ⟨hnot,stripped,_,rfl,hok'',prefixes,own ++ (loop ++ flags),?_,hprefixes,
      ?_,by rw [hsuffixes,hend]⟩)
    · rw [← List.append_assoc]
      exact hadds.trans hbuilds.toAdds
    · intro modifier
      have hown := hcounted modifier
      have hafter := hbuilds.takesModifiers hempty modifier
      unfold takenBy at hown hafter ⊢
      rw [List.countP_append]
      omega

theorem CtorKind.eq_integer {kind : CtorKind} (h : .unsigned ∈ kind.mask) :
    ∃ type, kind = .integer type := by
  cases kind with
  | integer type => exact ⟨type,rfl⟩
  | array isAutoSize => cases isAutoSize <;> exact absurd h (by decide)
  | _ => exact absurd h (by decide)

theorem unsigned_mem_iff {modifiers : Modifiers} {ctors : List Ctor}
    (h : TakesModifiers modifiers ctors) (hmasked : ∀ ctor ∈ ctors, ctor.Masked) :
    .unsigned ∈ modifiers ↔ ¬ NoInteger ctors := by
  have hcount := h .unsigned
  unfold takenBy at hcount
  constructor
  · intro hmem hno
    have hpos : 0 < ctors.countP (.unsigned ∈ ·.modifiers) := by simp [hcount,hmem]
    obtain ⟨ctor,hctor,htakes⟩ := List.countP_pos_iff.1 hpos
    have hmask := (hmasked ctor hctor).mask (of_decide_eq_true htakes)
    obtain ⟨type,hkind⟩ := CtorKind.eq_integer hmask
    exact hno ctor hctor type hkind
  · intro hsome
    by_contra hmem
    refine hsome fun ctor hctor type hkind => ?_
    have htakes := (hmasked ctor hctor).unsigned type hkind
    have hpos : 0 < ctors.countP (.unsigned ∈ ·.modifiers) :=
      List.countP_pos_iff.2 ⟨ctor,hctor,by simpa using htakes⟩
    simp [hcount,hmem] at hpos

theorem noInteger_append {ctors ctors' : List Ctor} :
    NoInteger (ctors ++ ctors') ↔ NoInteger ctors ∧ NoInteger ctors' := List.forall_mem_append

theorem prefixes_unsigned_iff {prefixes : List Modifiers} {parts : List (List Ctor)}
    (h : List.Forall₂ PrefixReads prefixes parts) (hmasked : ∀ ctor ∈ parts.flatten, ctor.Masked) :
    (∃ modifiers ∈ prefixes, .unsigned ∈ modifiers) ↔ ¬ NoInteger parts.flatten := by
  induction h with
  | nil => simp [NoInteger]
  | cons hfirst _ ih =>
    rw [List.flatten_cons,List.forall_mem_append] at hmasked
    rw [List.exists_mem_cons_iff,List.flatten_cons,noInteger_append,not_and_or,ih hmasked.2,
      unsigned_mem_iff hfirst.1 hmasked.1]

theorem taken_eq {α : Type} {all taken left : List α} {n : ℕ} (h : all.reverse = taken ++ left)
    (hleft : left.length = n) : taken = (all.drop n).reverse := by
  have hall : all = left.reverse ++ taken.reverse := by
    rw [← List.reverse_append,← h,List.reverse_reverse]
  rw [hall,List.drop_left' (by simpa using hleft),List.reverse_reverse]

/-- A declarator that is not rejected is read inside out exactly if its stripped dimension is left
to the loop and nothing of it is `unsigned` over a type that is not safe. -/
theorem meets_iff (d : Declarator) (env : Env) :
    d.Meets env ↔ Reports (d.calcType env) ∨
      ¬ d.TakesStripped env ∧ (d.UsesUnsigned → d.baseType.UnsignedSafe) := by
  rcases d.calcType_cases env with hreports | ⟨htakes,hpast⟩ |
      ⟨htakes,stripped,r,hstrip,hok,prefixes,own,hadds,hprefixes,hown,hleft⟩
  · exact ⟨fun _ => Or.inl hreports,fun _ => Or.inl hreports⟩
  · simp [Meets,htakes,hpast]
  have hno : ¬ Reports (d.calcType env) := fun ⟨error,h⟩ => by simp [hok] at h
  have hctors : r.ctors = prefixes.flatten ++ own := hadds.added
  have hmasked := hadds.masked
  rw [List.forall_mem_append] at hmasked
  have hinteger : d.UsesUnsigned ↔ ¬ NoInteger (prefixes.flatten ++ own) := by
    rw [UsesUnsigned,prefixes_unsigned_iff hprefixes hmasked.1,unsigned_mem_iff hown hmasked.2,
      noInteger_append,not_and_or]
  constructor
  · rintro (hreports | ⟨stripped',r',-,hok',hreads⟩)
    · exact absurd hreports hno
    obtain rfl : r = r' := Except.ok.inj (hok.symm.trans hok')
    refine Or.inr ⟨htakes,fun huses => hadds.reads.unsignedSafe ?_ (hinteger.1 huses)⟩
    rw [← hctors]
    exact hreads.type
  · rintro (hreports | ⟨-,hsafe⟩)
    · exact absurd hreports hno
    refine Or.inr ⟨stripped,r,hstrip,hok,?_,⟨prefixes,own,hctors,hprefixes,hown⟩,?_,?_⟩
    · rw [hctors]
      exact taken_eq hadds.taken hleft
    · rw [hctors]
      exact fun ctor hctor => (hadds.masked ctor hctor).mask
    · rw [hctors]
      refine hadds.reads.unsigned ?_
      by_cases huses : d.UsesUnsigned
      · exact Or.inl (hsafe huses)
      · exact Or.inr (not_not.1 (mt hinteger.2 huses))

/-- `new int array* [10]`: the prefix takes the dimension that is stripped for `new`. -/
def newArrayPtr : Declarator where
  baseType := .integer .int32
  typeModifiers := ∅
  pointerPrefixList := [{.array}]
  suffixList := [.array ⟨some 10,false⟩]
  hasElementCount := true
  hasFlags := false
  getter_head := by simp

/-- `unsigned Int* p`, where `Int` is kept as the shadow of a typedef of `int`. -/
def unsignedShadowPtr : Declarator where
  baseType := .typedefShadow (.integer .int32)
  typeModifiers := ∅
  pointerPrefixList := [{.unsigned}]
  suffixList := []
  hasElementCount := false
  hasFlags := true
  getter_head := by simp

/-- Expressions are parsed, and only `cdecl` functions have variable arguments. -/
def plainEnv : Env where
  isTemplate := false
  parseExpression _ := true
  varArgAllowed modifiers := .cdecl ∈ modifiers
  instantiates _ := true

theorem newArrayPtr_stepPastEnd : newArrayPtr.calcType plainEnv = .error .stepPastEnd := by
  decide

/-- The loop dereferences a null iterator, and the pointer is to a signed integer. -/
theorem not_meets : ¬ newArrayPtr.Meets plainEnv ∧ ¬ unsignedShadowPtr.Meets plainEnv := by
  constructor
  · rintro (⟨error,h⟩ | ⟨stripped,r,-,h,-⟩)
    · rw [newArrayPtr_stepPastEnd] at h
      cases h
    · rw [newArrayPtr_stepPastEnd] at h
      cases h
  · have hok : unsignedShadowPtr.calcType plainEnv = .ok ⟨.data,[],∅,
        [⟨.integer (.integer .int32),none,{.unsigned}⟩,⟨.dataPtr,none,∅⟩,⟨.declFlags,none,∅⟩]⟩ := by
      decide
    rintro (⟨error,h⟩ | ⟨stripped,r,-,h,hreads⟩)
    · rw [hok] at h
      cases h
    · obtain rfl := Except.ok.inj (hok.symm.trans h)
      obtain ⟨mid,⟨hunsigned,-⟩,-⟩ := hreads.type
      have hcode : CodeInteger (.typedefShadow (.integer .int32)) (.integer .int32) := rfl
      have hsafe := (unsignedInteger_iff hcode).1 hunsigned
      simp [Ty.UnsignedSafe,IntKind.unsigned] at hsafe

end Declarator
end Jancy.Ct.DeclTypeCalc
