import Mathlib.Tactic.SplitIfs
import Jancy.Ct.TypeSignature

/-! What a signature tells of its type, and what it drops. -/
namespace Jancy.Ct.Types

open PrefixCode

/-- A normal reference gets the code of a thin pointer. -/
def forgetDataPtrKind : Bool → DataPtrKind → Bool × DataPtrKind
  | true,.normal => (false,.thin)
  | isRef,ptrKind => (isRef,ptrKind)

/-- A normal reference gets the code of a thin pointer. -/
def forgetFunctionPtrKind : Bool → FunctionPtrKind → Bool × FunctionPtrKind
  | true,.normal => (false,.thin)
  | isRef,ptrKind => (isRef,ptrKind)

/-- The two flags of error codes get one letter, and the flags of the calling convention none. -/
def FunctionTypeFlags.forget (flags : FunctionTypeFlags) : FunctionTypeFlags where
  varArg := flags.varArg
  errorCode := flags.errorCode || flags.asyncErrorCode
  unsafe_ := flags.unsafe_
  async := flags.async

mutual

/-- What is left of a type in its signature: element counts are cut to 32 bits, normal references
look like thin pointers, pointers and normal references to classes look like data pointers and lean
data references, and async return types are dropped. -/
def Ty.forget : Ty → Ty
  | .primitive kind => .primitive kind
  | .named kind linkId => .named kind linkId
  | .array elementType elementCount _ =>
    .array elementType.forget ((elementCount.setWidth 32).setWidth 64) none
  | .dataPtr isRef ptrKind flags bits targetType =>
    .dataPtr (forgetDataPtrKind isRef ptrKind).1 (forgetDataPtrKind isRef ptrKind).2 flags bits
      targetType.forget
  | .classPtr false .normal flags targetType =>
    .dataPtr false .normal flags none (.named .class targetType)
  | .classPtr true .normal flags targetType =>
    .dataPtr true .lean flags none (.named .class targetType)
  | .classPtr isRef .weak flags targetType => .classPtr isRef .weak flags targetType
  | .functionPtr isRef ptrKind flags targetType =>
    .functionPtr (forgetFunctionPtrKind isRef ptrKind).1 (forgetFunctionPtrKind isRef ptrKind).2
      flags targetType.forget
  | .propertyPtr isRef ptrKind flags targetType =>
    .propertyPtr (forgetFunctionPtrKind isRef ptrKind).1 (forgetFunctionPtrKind isRef ptrKind).2
      flags targetType.forget

def FunctionTy.forget : FunctionTy → FunctionTy
  | .mk flags callConv returnType _ argArray _ =>
    .mk flags.forget callConv returnType.forget .null argArray.forget none

def ArgTys.forget : ArgTys → ArgTys
  | .nil => .nil
  | .cons isThis type rest => .cons isThis type.forget rest.forget

def PropertyTy.forget : PropertyTy → PropertyTy
  | .mk _ bindable getterType setterType => .mk false bindable getterType.forget setterType.forget

def SetterTys.forget : SetterTys → SetterTys
  | .nil => .nil
  | .cons type rest => .cons type.forget rest.forget

end

theorem dataPtrStringTable_forget (isRef : Bool) (ptrKind : DataPtrKind) :
    dataPtrStringTable (ptrSignatureIdx (forgetDataPtrKind isRef ptrKind).1
      (forgetDataPtrKind isRef ptrKind).2.idx) =
      dataPtrStringTable (ptrSignatureIdx isRef ptrKind.idx) := by
  cases isRef <;> cases ptrKind <;> rfl

theorem functionPtrStringTable_forget (isRef : Bool) (ptrKind : FunctionPtrKind) :
    functionPtrStringTable (ptrSignatureIdx (forgetFunctionPtrKind isRef ptrKind).1
      (forgetFunctionPtrKind isRef ptrKind).2.idx) =
      functionPtrStringTable (ptrSignatureIdx isRef ptrKind.idx) := by
  cases isRef <;> cases ptrKind <;> rfl

theorem FunctionTypeFlags.signature_forget (flags : FunctionTypeFlags) :
    flags.forget.signature = flags.signature := by
  simp [signature,forget]

mutual

theorem Ty.signature_forget : ∀ type : Ty, type.forget.signature = type.signature
  | .primitive kind => rfl
  | .named kind linkId => rfl
  | .array elementType elementCount serial => by
    have helement := elementType.signature_forget
    simp [Ty.forget,Ty.signature,helement]
  | .dataPtr isRef ptrKind flags bits targetType => by
    have htarget := targetType.signature_forget
    simp only [Ty.forget,Ty.signature,htarget,dataPtrStringTable_forget]
  | .classPtr isRef ptrKind flags targetType => by
    cases isRef <;> cases ptrKind <;> rfl
  | .functionPtr isRef ptrKind flags targetType => by
    have htarget := targetType.signature_forget
    simp only [Ty.forget,Ty.signature,htarget,functionPtrStringTable_forget]
  | .propertyPtr isRef ptrKind flags targetType => by
    have htarget := targetType.signature_forget
    simp only [Ty.forget,Ty.signature,htarget,functionPtrStringTable_forget]

theorem FunctionTy.signature_forget : ∀ type : FunctionTy, type.forget.signature = type.signature
  | .mk flags callConv returnType asyncReturnType argArray serial => by
    have hreturn := returnType.signature_forget
    have hargs := argArray.signature_forget
    simp only [FunctionTy.forget,FunctionTy.signature,hreturn,hargs,
      FunctionTypeFlags.signature_forget]
    rfl

theorem ArgTys.signature_forget : ∀ args : ArgTys, args.forget.signature = args.signature
  | .nil => rfl
  | .cons isThis type rest => by
    have htype := type.signature_forget
    have hrest := rest.signature_forget
    simp only [ArgTys.forget,ArgTys.signature,htype,hrest]

theorem PropertyTy.signature_forget : ∀ type : PropertyTy, type.forget.signature = type.signature
  | .mk isConst bindable getterType setterType => by
    have hgetter := getterType.signature_forget
    have hsetter := setterType.signature_forget
    simp only [PropertyTy.forget,PropertyTy.signature,hgetter,hsetter]

theorem SetterTys.signature_forget : ∀ setters : SetterTys,
    setters.forget.signature = setters.signature
  | .nil => rfl
  | .cons type rest => by
    have htype := type.signature_forget
    have hrest := rest.signature_forget
    simp only [SetterTys.forget,SetterTys.signature,htype,hrest]

end

@[simp] theorem mem_letterIf {flag : Bool} {c d : Char} : c ∈ letterIf flag d ↔ flag ∧ c = d := by
  cases flag <;> simp [letterIf]

def ptrTypeFlagLetters : List Char :=
  ['v','s','e','d','b','a','n','f','h','c','m','x','y','u','r']

theorem ConstKind.signature_letters (kind : ConstKind) :
    ∀ c ∈ kind.signature, c ∈ ptrTypeFlagLetters := by
  cases kind <;> simp [signature,ptrTypeFlagLetters]

theorem PtrTypeFlags.signature_letters (flags : PtrTypeFlags) :
    ∀ c ∈ flags.signature, c ∈ ptrTypeFlagLetters := by
  intro c hc
  simp only [signature,List.mem_append,mem_letterIf] at hc
  rcases hc with ((((((((⟨-,rfl⟩ | ⟨-,rfl⟩) | ⟨-,rfl⟩) | ⟨-,rfl⟩) | ⟨-,rfl⟩) | ⟨-,rfl⟩) | ⟨-,rfl⟩) |
    ⟨-,rfl⟩) | ⟨-,rfl⟩) | hc
  iterate 9 simp [ptrTypeFlagLetters]
  exact flags.constKind.signature_letters c hc

theorem ConstKind.signature_inj {kind kind' : ConstKind} (h : kind.signature = kind'.signature) :
    kind = kind' := by
  cases kind <;> cases kind' <;> simp [signature] at h <;> rfl

variable {x y : List Char}

theorem letterIf_append_inj {flag flag' : Bool} {c : Char} (hx : c ∉ x) (hy : c ∉ y) :
    letterIf flag c ++ x = letterIf flag' c ++ y ↔ flag = flag' ∧ x = y := by
  refine ⟨fun h => ?_,?_⟩
  · cases flag <;> cases flag' <;> simp [letterIf] at h
    · exact ⟨rfl,h⟩
    · exact absurd (h ▸ List.mem_cons_self) hx
    · exact absurd (h ▸ List.mem_cons_self) hy
    · exact ⟨rfl,h⟩
  · rintro ⟨rfl,rfl⟩
    rfl

theorem ConstKind.notMem_signature (kind : ConstKind) {c : Char}
    (hc : c ∉ ['c','m','x','y','u','r']) : c ∉ kind.signature := by
  cases kind <;> simp_all [signature]

variable {flags flags' : PtrTypeFlags}

theorem PtrTypeFlags.signature_inj (h : flags.signature = flags'.signature) : flags = flags' := by
  simp only [signature,List.append_assoc] at h
  simp (disch := simp [ConstKind.notMem_signature]) only [letterIf_append_inj] at h
  obtain ⟨hvolatile,hsafe,hevent,hautoEvent,hbindable,hautoGet,hbigEndian,hbitField,hthinThis,h⟩ := h
  have hconst := ConstKind.signature_inj h
  cases flags
  cases flags'
  simp_all

/-- The characters that `%d` prints. -/
def isIntChar (c : Char) : Prop :=
  c.isDigit = true ∨ c = '-'

theorem formatInt_chars (n : BitVec 32) : ∀ c ∈ formatInt n, isIntChar c := by
  intro c hc
  rw [formatInt] at hc
  split_ifs at hc
  · rcases List.mem_cons.1 hc with rfl | hc
    · exact Or.inr rfl
    · exact Or.inl (Nat.isDigit_of_mem_toDigits (by decide) (by decide) hc)
  · exact Or.inl (Nat.isDigit_of_mem_toDigits (by decide) (by decide) hc)

theorem toDigits_inj {m n : ℕ} (h : Nat.toDigits 10 m = Nat.toDigits 10 n) : m = n := by
  rw [← @Nat.ofDigitChars_ten_toDigits m,h,Nat.ofDigitChars_ten_toDigits]

theorem minus_notMem_toDigits (n : ℕ) : '-' ∉ Nat.toDigits 10 n := by
  intro hmem
  have hdigit := Nat.isDigit_of_mem_toDigits (by decide) (by decide) hmem
  exact absurd hdigit (by decide)

theorem formatInt_inj {m n : BitVec 32} (h : formatInt m = formatInt n) : m = n := by
  rw [formatInt,formatInt] at h
  split_ifs at h
  · simp only [List.cons.injEq,true_and] at h
    have hneg := BitVec.eq_of_toNat_eq (toDigits_inj h)
    exact BitVec.neg_inj.1 hneg
  · exact absurd (h ▸ List.mem_cons_self) (minus_notMem_toDigits n.toNat)
  · exact absurd (h ▸ List.mem_cons_self) (minus_notMem_toDigits m.toNat)
  · exact BitVec.eq_of_toNat_eq (toDigits_inj h)

theorem formatInt_append_inj {m n : BitVec 32} (hx : ∀ c ∈ x.head?, ¬ isIntChar c)
    (hy : ∀ c ∈ y.head?, ¬ isIntChar c) (h : formatInt m ++ x = formatInt n ++ y) :
    m = n ∧ x = y := by
  obtain ⟨hformat,hrest⟩ := append_inj_of_class (formatInt_chars m) (formatInt_chars n) hx hy h
  exact ⟨formatInt_inj hformat,hrest⟩

theorem notMem_formatInt {n : BitVec 32} {c : Char} (hc : ¬ isIntChar c) : c ∉ formatInt n :=
  fun hmem => hc (formatInt_chars n c hmem)

theorem head?_flags (flags : PtrTypeFlags) : ∀ c ∈ flags.signature.head?, ¬ isIntChar c := by
  intro c hc
  have hletter := flags.signature_letters c (List.mem_of_mem_head? hc)
  simp only [ptrTypeFlagLetters,List.mem_cons,List.not_mem_nil,or_false] at hletter
  rcases hletter with rfl | rfl | rfl | rfl | rfl | rfl | rfl | rfl | rfl | rfl | rfl | rfl | rfl |
    rfl | rfl <;> simp [isIntChar]

theorem colon_notMem_flags (flags : PtrTypeFlags) : ':' ∉ flags.signature := by
  intro hmem
  have hletter := flags.signature_letters ':' hmem
  exact absurd hletter (by decide)

theorem amp_notMem_flags (flags : PtrTypeFlags) : '&' ∉ flags.signature := by
  intro hmem
  have hletter := flags.signature_letters '&' hmem
  exact absurd hletter (by decide)

theorem bitSignature_append_inj {bits bits' : Option BitRange}
    (h : bitSignature bits ++ flags.signature = bitSignature bits' ++ flags'.signature) :
    bits = bits' ∧ flags = flags' := by
  cases bits with
  | none =>
    cases bits' with
    | none => exact ⟨rfl,PtrTypeFlags.signature_inj h⟩
    | some bits' =>
      have hmem : ':' ∈ flags.signature := by
        simp only [bitSignature,List.nil_append] at h
        simp [h]
      exact absurd hmem (colon_notMem_flags flags)
  | some bits =>
    cases bits' with
    | none =>
      have hmem : ':' ∈ flags'.signature := by
        simp only [bitSignature,List.nil_append] at h
        simp [← h]
      exact absurd hmem (colon_notMem_flags flags')
    | some bits' =>
      simp only [bitSignature,List.cons_append,List.append_assoc,List.cons.injEq,true_and] at h
      have hcolon : ¬ isIntChar ':' := by simp [isIntChar]
      obtain ⟨hoffset,h⟩ := formatInt_append_inj (by simpa using hcolon) (by simpa using hcolon) h
      simp only [List.cons.injEq,true_and] at h
      obtain ⟨hsum,hflags⟩ := formatInt_append_inj (head?_flags flags) (head?_flags flags') h
      rw [hoffset] at hsum
      have hcount := BitVec.add_right_inj _ |>.1 hsum
      cases bits
      cases bits'
      simp only at hoffset hcount
      subst hoffset hcount
      exact ⟨rfl,PtrTypeFlags.signature_inj hflags⟩

theorem amp_notMem_bits (bits : Option BitRange) : '&' ∉ bitSignature bits := by
  cases bits with
  | none => simp [bitSignature]
  | some bits =>
    have hamp : ¬ isIntChar '&' := by simp [isIntChar]
    simp [bitSignature,notMem_formatInt hamp]

theorem ptrSignature_append_inj {code code' : List Char} {bits bits' : Option BitRange}
    {target target' x y : List Char} (hlength : code.length = code'.length)
    (h : ptrSignature code bits flags target ++ x = ptrSignature code' bits' flags' target' ++ y) :
    code = code' ∧ bits = bits' ∧ flags = flags' ∧ target ++ x = target' ++ y := by
  simp only [ptrSignature,List.append_assoc,List.cons_append] at h
  obtain ⟨hcode,h⟩ := List.append_inj h hlength
  rw [← List.append_assoc,← List.append_assoc] at h
  have hamp (bits : Option BitRange) (flags : PtrTypeFlags) :
      ∀ c ∈ bitSignature bits ++ flags.signature, c ≠ '&' := by
    intro c hc heq
    simp [heq,amp_notMem_bits,amp_notMem_flags] at hc
  obtain ⟨hmiddle,htarget⟩ := append_inj_of_class (hamp bits flags) (hamp bits' flags') (by simp)
    (by simp) h
  simp only [List.cons.injEq,true_and] at htarget
  obtain ⟨hbits,hflags⟩ := bitSignature_append_inj hmiddle
  exact ⟨hcode,hbits,hflags,htarget⟩

theorem LinkId.signature_append_inj {kind kind' : NamedKind} {linkId linkId' : LinkId}
    (h : linkId.signature kind ++ x = linkId'.signature kind' ++ y) :
    kind = kind' ∧ linkId = linkId' ∧ x = y := by
  simp only [signature,List.cons_append,List.append_assoc,List.nil_append,List.cons.injEq] at h
  obtain ⟨hkind,h⟩ := h
  obtain ⟨hchars,hrest⟩ := Bracketed.append_inj (by decide) (by decide) linkId.bracketed
    linkId'.bracketed h
  refine ⟨?_,?_,hrest⟩
  · cases kind <;> cases kind' <;> first | rfl | exact absurd hkind (by decide)
  · cases linkId
    cases linkId'
    simp only at hchars
    subst hchars
    rfl

theorem CallConvKind.signature_prefixFree : PrefixFree CallConvKind.signature := by
  apply prefixFree_of_length 3
  · intro callConv
    cases callConv <;> rfl
  · intro callConv callConv' h
    cases callConv <;> cases callConv' <;> first | rfl | simp [signature] at h

/-- The constructors that the first letter of a signature tells apart. -/
inductive Tag where
  | primitive
  | named
  | array
  | ptr
  | other

def Ty.tag : Ty → Tag
  | .primitive _ => .primitive
  | .named _ _ => .named
  | .array _ _ _ => .array
  | .dataPtr _ _ _ _ _ | .classPtr _ _ _ _ | .functionPtr _ _ _ _ | .propertyPtr _ _ _ _ => .ptr

def charTag (c : Char) : Tag :=
  if c = 'A' then .array
  else if c ∈ ['E','S','U','C'] then .named
  else if c ∈ ['P','R'] then .ptr
  else if c ∈ ['v','z','s','j','b','c','y','h','w','i','d','l','q','f','e'] then .primitive
  else .other

theorem Ty.signature_eq_cons (type : Ty) :
    ∃ c s, type.signature = c :: s ∧ charTag c = type.tag := by
  cases type with
  | primitive kind => exact ⟨_,_,rfl,by cases kind <;> rfl⟩
  | named kind linkId => exact ⟨_,_,rfl,by cases kind <;> rfl⟩
  | array elementType elementCount serial => exact ⟨_,_,rfl,rfl⟩
  | dataPtr isRef ptrKind flags bits targetType =>
    cases isRef <;> cases ptrKind <;> exact ⟨_,_,rfl,rfl⟩
  | classPtr isRef ptrKind flags targetType =>
    cases isRef <;> cases ptrKind <;> exact ⟨_,_,rfl,rfl⟩
  | functionPtr isRef ptrKind flags targetType =>
    cases isRef <;> cases ptrKind <;> exact ⟨_,_,rfl,rfl⟩
  | propertyPtr isRef ptrKind flags targetType =>
    cases isRef <;> cases ptrKind <;> exact ⟨_,_,rfl,rfl⟩

theorem Ty.tag_ne_other (type : Ty) : type.tag ≠ .other := by
  cases type <;> simp [tag]

theorem Ty.head_ne {type : Ty} {c : Char} {s x : List Char} (hc : charTag c = .other) :
    type.signature ++ x ≠ c :: s := by
  intro h
  obtain ⟨d,t,hsignature,htag⟩ := type.signature_eq_cons
  rw [hsignature,List.cons_append,List.cons.injEq] at h
  rw [h.1,hc] at htag
  exact type.tag_ne_other htag.symm

theorem Ty.tag_eq {type type' : Ty} (h : type.signature ++ x = type'.signature ++ y) :
    type.tag = type'.tag := by
  obtain ⟨c,s,hsignature,htag⟩ := type.signature_eq_cons
  obtain ⟨c',s',hsignature',htag'⟩ := type'.signature_eq_cons
  rw [hsignature,hsignature',List.cons_append,List.cons_append,List.cons.injEq] at h
  rw [← htag,← htag',h.1]

theorem Ty.head_not_int (type : Ty) (x : List Char) :
    ∀ c ∈ (type.signature ++ x).head?, ¬ isIntChar c := by
  intro c hc hint
  obtain ⟨d,s,hsignature,htag⟩ := type.signature_eq_cons
  rw [hsignature,List.cons_append,List.head?_cons,Option.mem_some_iff] at hc
  subst hc
  have hother : charTag d ≠ .other := htag ▸ type.tag_ne_other
  apply hother
  rcases hint with hdigit | rfl
  · simp only [Char.isDigit,Bool.and_eq_true,decide_eq_true_eq] at hdigit
    have hne (e : Char) (he : e.val > 57) : d ≠ e := by
      rintro rfl
      exact absurd he (UInt32.not_lt.2 hdigit.2)
    simp [charTag,hne]
  · rfl

/-- What follows a type of data is never a function type. -/
def Follows (x : List Char) : Prop :=
  x.head? ≠ some 'F'

/-- What follows the arguments of a function type. -/
def Ends (x : List Char) : Prop :=
  x.head? = some '.' ∨ x.head? = some ')'

theorem Ends.follows {x : List Char} (h : Ends x) : Follows x := by
  rcases h with h | h <;> simp [Follows,h]

variable {isRef isRef' : Bool}

theorem dataPtrStringTable_inj {ptrKind ptrKind' : DataPtrKind}
    (h : dataPtrStringTable (ptrSignatureIdx isRef ptrKind.idx) =
      dataPtrStringTable (ptrSignatureIdx isRef' ptrKind'.idx)) :
    forgetDataPtrKind isRef ptrKind = forgetDataPtrKind isRef' ptrKind' := by
  cases isRef <;> cases ptrKind <;> cases isRef' <;> cases ptrKind' <;>
    first | rfl | exact absurd h (by decide)

theorem functionPtrStringTable_inj {ptrKind ptrKind' : FunctionPtrKind}
    (h : functionPtrStringTable (ptrSignatureIdx isRef ptrKind.idx) =
      functionPtrStringTable (ptrSignatureIdx isRef' ptrKind'.idx)) :
    forgetFunctionPtrKind isRef ptrKind = forgetFunctionPtrKind isRef' ptrKind' := by
  cases isRef <;> cases ptrKind <;> cases isRef' <;> cases ptrKind' <;>
    first | rfl | exact absurd h (by decide)

theorem classPtrStringTable_inj {ptrKind ptrKind' : ClassPtrKind}
    (h : classPtrStringTable (ptrSignatureIdx isRef ptrKind.idx) =
      classPtrStringTable (ptrSignatureIdx isRef' ptrKind'.idx)) :
    isRef = isRef' ∧ ptrKind = ptrKind' := by
  cases isRef <;> cases ptrKind <;> cases isRef' <;> cases ptrKind' <;>
    first | exact ⟨rfl,rfl⟩ | exact absurd h (by decide)

theorem Ty.forget_classPtr {ptrKind : DataPtrKind} {ptrKind' : ClassPtrKind} (flags : PtrTypeFlags)
    (linkId : LinkId) (h : dataPtrStringTable (ptrSignatureIdx isRef ptrKind.idx) =
      classPtrStringTable (ptrSignatureIdx isRef' ptrKind'.idx)) :
    (Ty.classPtr isRef' ptrKind' flags linkId).forget =
      .dataPtr (forgetDataPtrKind isRef ptrKind).1 (forgetDataPtrKind isRef ptrKind).2 flags none
        (.named .class linkId) := by
  cases isRef <;> cases ptrKind <;> cases isRef' <;> cases ptrKind' <;>
    first | rfl | exact absurd h (by decide)

@[simp] theorem length_dataPtrStringTable (isRef : Bool) (ptrKind : DataPtrKind) :
    (dataPtrStringTable (ptrSignatureIdx isRef ptrKind.idx)).length = 2 := by
  cases isRef <;> cases ptrKind <;> rfl

@[simp] theorem length_classPtrStringTable (isRef : Bool) (ptrKind : ClassPtrKind) :
    (classPtrStringTable (ptrSignatureIdx isRef ptrKind.idx)).length = 2 := by
  cases isRef <;> cases ptrKind <;> rfl

@[simp] theorem length_functionPtrStringTable (isRef : Bool) (ptrKind : FunctionPtrKind) :
    (functionPtrStringTable (ptrSignatureIdx isRef ptrKind.idx)).length = 2 := by
  cases isRef <;> cases ptrKind <;> rfl

def Ty.Reads (type : Ty) : Prop :=
  ∀ (type' : Ty) (x y : List Char), Follows x → Follows y →
    type.signature ++ x = type'.signature ++ y → type.forget = type'.forget ∧ x = y

def FunctionTy.Reads (type : FunctionTy) : Prop :=
  ∀ (type' : FunctionTy) (x y : List Char), type.signature ++ x = type'.signature ++ y →
    type.forget = type'.forget ∧ x = y

def ArgTys.Reads (args : ArgTys) : Prop :=
  ∀ (args' : ArgTys) (x y : List Char), Ends x → Ends y →
    args.signature ++ x = args'.signature ++ y → args.forget = args'.forget ∧ x = y

def PropertyTy.Reads (type : PropertyTy) : Prop :=
  ∀ (type' : PropertyTy) (x y : List Char), Follows x → Follows y →
    type.signature ++ x = type'.signature ++ y → type.forget = type'.forget ∧ x = y

def SetterTys.Reads (setters : SetterTys) : Prop :=
  ∀ (setters' : SetterTys) (x y : List Char), Follows x → Follows y →
    setters.signature ++ x = setters'.signature ++ y → setters.forget = setters'.forget ∧ x = y

theorem FunctionTy.signature_eq_cons (type : FunctionTy) : ∃ s, type.signature = 'F' :: s := by
  cases type
  exact ⟨_,rfl⟩

theorem PropertyTy.signature_eq_cons (type : PropertyTy) : ∃ s, type.signature = 'Y' :: s := by
  cases type
  exact ⟨_,rfl⟩

theorem Ty.signature_ne_function {type : Ty} {type' : FunctionTy} :
    type.signature ++ x ≠ type'.signature ++ y := by
  obtain ⟨s,hs⟩ := type'.signature_eq_cons
  rw [hs,List.cons_append]
  exact Ty.head_ne rfl

theorem Ty.signature_ne_property {type : Ty} {type' : PropertyTy} :
    type.signature ++ x ≠ type'.signature ++ y := by
  obtain ⟨s,hs⟩ := type'.signature_eq_cons
  rw [hs,List.cons_append]
  exact Ty.head_ne rfl

theorem FunctionTy.signature_ne_property {type : FunctionTy} {type' : PropertyTy} :
    type.signature ++ x ≠ type'.signature ++ y := by
  obtain ⟨s,hs⟩ := type.signature_eq_cons
  obtain ⟨s',hs'⟩ := type'.signature_eq_cons
  simp [hs,hs']

theorem LinkId.signature_ne_function {linkId : LinkId} {type : FunctionTy} :
    linkId.signature .class ++ x ≠ type.signature ++ y :=
  @Ty.signature_ne_function x y (.named .class linkId) type

theorem LinkId.signature_ne_property {linkId : LinkId} {type : PropertyTy} :
    linkId.signature .class ++ x ≠ type.signature ++ y :=
  @Ty.signature_ne_property x y (.named .class linkId) type

theorem Ty.reads_primitive (kind : PrimitiveKind) : (Ty.primitive kind).Reads := by
  intro type' x y hx hy h
  have htag := Ty.tag_eq h
  cases type' <;> simp only [Ty.tag,reduceCtorEq] at htag
  rename_i kind'
  simp only [Ty.signature,List.cons_append,List.nil_append,List.cons.injEq] at h
  obtain ⟨hkind,hrest⟩ := h
  refine ⟨?_,hrest⟩
  cases kind <;> cases kind' <;> first | rfl | exact absurd hkind (by decide)

theorem Ty.reads_named (kind : NamedKind) (linkId : LinkId) : (Ty.named kind linkId).Reads := by
  intro type' x y hx hy h
  have htag := Ty.tag_eq h
  cases type' <;> simp only [Ty.tag,reduceCtorEq] at htag
  obtain ⟨rfl,rfl,hrest⟩ := LinkId.signature_append_inj h
  exact ⟨rfl,hrest⟩

theorem Ty.reads_array {elementType : Ty} (elementCount : BitVec 64) (serial : Option ℕ)
    (hread : elementType.Reads) : (Ty.array elementType elementCount serial).Reads := by
  intro type' x y hx hy h
  have htag := Ty.tag_eq h
  cases type' <;> simp only [Ty.tag,reduceCtorEq] at htag
  rename_i elementType' elementCount' serial'
  simp only [Ty.signature,List.cons_append,List.append_assoc,List.cons.injEq,true_and] at h
  obtain ⟨hcount,h⟩ := formatInt_append_inj (elementType.head_not_int x)
    (elementType'.head_not_int y) h
  obtain ⟨helement,hrest⟩ := hread elementType' x y hx hy h
  exact ⟨by simp [Ty.forget,hcount,helement],hrest⟩

theorem Ty.reads_dataPtr (isRef : Bool) (ptrKind : DataPtrKind) (flags : PtrTypeFlags)
    (bits : Option BitRange) {targetType : Ty} (hread : targetType.Reads) :
    (Ty.dataPtr isRef ptrKind flags bits targetType).Reads := by
  intro type' x y hx hy h
  have htag := Ty.tag_eq h
  cases type' <;> simp only [Ty.tag,reduceCtorEq] at htag <;> simp only [Ty.signature] at h
  case dataPtr =>
    obtain ⟨hcode,rfl,rfl,htext⟩ := ptrSignature_append_inj (by simp) h
    obtain ⟨htarget,hrest⟩ := hread _ x y hx hy htext
    exact ⟨by simp only [Ty.forget,dataPtrStringTable_inj hcode,htarget],hrest⟩
  case classPtr =>
    obtain ⟨hcode,rfl,rfl,htext⟩ := ptrSignature_append_inj (by simp) h
    obtain ⟨htarget,hrest⟩ := hread (.named .class _) x y hx hy htext
    refine ⟨?_,hrest⟩
    rw [Ty.forget_classPtr _ _ hcode,Ty.forget,htarget]
    rfl
  case functionPtr =>
    obtain ⟨-,-,-,htext⟩ := ptrSignature_append_inj (by simp) h
    exact absurd htext Ty.signature_ne_function
  case propertyPtr =>
    obtain ⟨-,-,-,htext⟩ := ptrSignature_append_inj (by simp) h
    exact absurd htext Ty.signature_ne_property

theorem Ty.reads_classPtr (isRef : Bool) (ptrKind : ClassPtrKind) (flags : PtrTypeFlags)
    (targetType : LinkId) : (Ty.classPtr isRef ptrKind flags targetType).Reads := by
  intro type' x y hx hy h
  have htag := Ty.tag_eq h
  cases type' <;> simp only [Ty.tag,reduceCtorEq] at htag <;> simp only [Ty.signature] at h
  case dataPtr =>
    obtain ⟨hcode,rfl,rfl,htext⟩ := ptrSignature_append_inj (by simp) h
    obtain ⟨htarget,hrest⟩ := Ty.reads_named .class targetType _ x y hx hy htext
    refine ⟨?_,hrest⟩
    rw [Ty.forget_classPtr _ _ hcode.symm,Ty.forget,← htarget]
    rfl
  case classPtr =>
    obtain ⟨hcode,-,rfl,htext⟩ := ptrSignature_append_inj (by simp) h
    obtain ⟨rfl,rfl⟩ := classPtrStringTable_inj hcode
    obtain ⟨-,rfl,hrest⟩ := LinkId.signature_append_inj htext
    exact ⟨rfl,hrest⟩
  case functionPtr =>
    obtain ⟨-,-,-,htext⟩ := ptrSignature_append_inj (by simp) h
    exact absurd htext LinkId.signature_ne_function
  case propertyPtr =>
    obtain ⟨-,-,-,htext⟩ := ptrSignature_append_inj (by simp) h
    exact absurd htext LinkId.signature_ne_property

theorem Ty.reads_functionPtr (isRef : Bool) (ptrKind : FunctionPtrKind) (flags : PtrTypeFlags)
    {targetType : FunctionTy} (hread : targetType.Reads) :
    (Ty.functionPtr isRef ptrKind flags targetType).Reads := by
  intro type' x y hx hy h
  have htag := Ty.tag_eq h
  cases type' <;> simp only [Ty.tag,reduceCtorEq] at htag <;> simp only [Ty.signature] at h
  case dataPtr =>
    obtain ⟨-,-,-,htext⟩ := ptrSignature_append_inj (by simp) h
    exact absurd htext.symm Ty.signature_ne_function
  case classPtr =>
    obtain ⟨-,-,-,htext⟩ := ptrSignature_append_inj (by simp) h
    exact absurd htext.symm LinkId.signature_ne_function
  case functionPtr =>
    obtain ⟨hcode,-,rfl,htext⟩ := ptrSignature_append_inj (by simp) h
    obtain ⟨htarget,hrest⟩ := hread _ x y htext
    exact ⟨by simp only [Ty.forget,functionPtrStringTable_inj hcode,htarget],hrest⟩
  case propertyPtr =>
    obtain ⟨-,-,-,htext⟩ := ptrSignature_append_inj (by simp) h
    exact absurd htext FunctionTy.signature_ne_property

theorem Ty.reads_propertyPtr (isRef : Bool) (ptrKind : FunctionPtrKind) (flags : PtrTypeFlags)
    {targetType : PropertyTy} (hread : targetType.Reads) :
    (Ty.propertyPtr isRef ptrKind flags targetType).Reads := by
  intro type' x y hx hy h
  have htag := Ty.tag_eq h
  cases type' <;> simp only [Ty.tag,reduceCtorEq] at htag <;> simp only [Ty.signature] at h
  case dataPtr =>
    obtain ⟨-,-,-,htext⟩ := ptrSignature_append_inj (by simp) h
    exact absurd htext.symm Ty.signature_ne_property
  case classPtr =>
    obtain ⟨-,-,-,htext⟩ := ptrSignature_append_inj (by simp) h
    exact absurd htext.symm LinkId.signature_ne_property
  case functionPtr =>
    obtain ⟨-,-,-,htext⟩ := ptrSignature_append_inj (by simp) h
    exact absurd htext.symm FunctionTy.signature_ne_property
  case propertyPtr =>
    obtain ⟨hcode,-,rfl,htext⟩ := ptrSignature_append_inj (by simp) h
    obtain ⟨htarget,hrest⟩ := hread _ x y hx hy htext
    exact ⟨by simp only [Ty.forget,functionPtrStringTable_inj hcode,htarget],hrest⟩

theorem FunctionTypeFlags.signature_letters (flags : FunctionTypeFlags) :
    ∀ c ∈ flags.signature, c ∈ ['u','a','e'] := by
  intro c hc
  simp only [signature,List.mem_append,mem_letterIf] at hc
  rcases hc with (⟨-,rfl⟩ | ⟨-,rfl⟩) | ⟨-,rfl⟩ <;> simp

theorem FunctionTypeFlags.signature_inj {flags flags' : FunctionTypeFlags}
    (h : flags.signature = flags'.signature) (hvarArg : flags.varArg = flags'.varArg) :
    flags.forget = flags'.forget := by
  simp only [signature,List.append_assoc] at h
  obtain ⟨hnotSafe,h⟩ := (letterIf_append_inj (by simp) (by simp)).1 h
  obtain ⟨hasync,h⟩ := (letterIf_append_inj (by simp) (by simp)).1 h
  have herror : (flags.errorCode || flags.asyncErrorCode) =
      (flags'.errorCode || flags'.asyncErrorCode) := by
    refine ((letterIf_append_inj (c := 'e') List.not_mem_nil List.not_mem_nil).1 ?_).1
    simpa using h
  simp only [forget,hvarArg,hnotSafe,hasync,herror]

theorem CallConvKind.head_upper (callConv : CallConvKind) (x : List Char) :
    ∀ c ∈ (callConv.signature ++ x).head?, c ∉ ['u','a','e'] := by
  cases callConv <;> simp [signature]

theorem ends_args (varArg : Bool) (x : List Char) : Ends (letterIf varArg '.' ++ ')' :: x) := by
  cases varArg
  · exact Or.inr rfl
  · exact Or.inl rfl

theorem ArgTys.follows (args : ArgTys) {x : List Char} (hx : Ends x) :
    Follows (args.signature ++ x) := by
  cases args with
  | nil => exact hx.follows
  | cons isThis type rest =>
    cases isThis
    · intro h
      obtain ⟨s,hs⟩ := List.head?_eq_some_iff.1 h
      simp only [signature,letterIf,Bool.false_eq_true,if_false,List.nil_append,
        List.append_assoc] at hs
      exact Ty.head_ne rfl hs
    · simp [Follows,signature,letterIf]

theorem Ends.ne_arg (hx : Ends x) (isThis : Bool) (type : Ty) :
    x ≠ letterIf isThis '&' ++ (type.signature ++ y) := by
  intro h
  cases isThis
  · simp only [letterIf,Bool.false_eq_true,if_false,List.nil_append] at h
    rcases hx with hx | hx
    · obtain ⟨s,rfl⟩ := List.head?_eq_some_iff.1 hx
      exact Ty.head_ne rfl h.symm
    · obtain ⟨s,rfl⟩ := List.head?_eq_some_iff.1 hx
      exact Ty.head_ne rfl h.symm
  · rcases hx with hx | hx <;> simp [h,letterIf] at hx

theorem ArgTys.reads_nil : ArgTys.nil.Reads := by
  intro args' x y hx hy h
  cases args' with
  | nil => exact ⟨rfl,h⟩
  | cons isThis type rest =>
    simp only [signature,List.nil_append,List.append_assoc] at h
    exact absurd h (hx.ne_arg isThis type)

theorem ArgTys.reads_cons (isThis : Bool) {type : Ty} {rest : ArgTys} (htype : type.Reads)
    (hrest : rest.Reads) : (ArgTys.cons isThis type rest).Reads := by
  intro args' x y hx hy h
  cases args' with
  | nil =>
    simp only [signature,List.nil_append,List.append_assoc] at h
    exact absurd h.symm (hy.ne_arg isThis type)
  | cons isThis' type' rest' =>
    simp only [signature,List.append_assoc] at h
    have hthis : isThis = isThis' ∧
        type.signature ++ (rest.signature ++ x) = type'.signature ++ (rest'.signature ++ y) := by
      cases isThis <;> cases isThis' <;> simp only [letterIf,Bool.false_eq_true,if_false,if_true,
        List.nil_append,List.cons_append,List.cons.injEq,true_and] at h ⊢
      · exact h
      · exact absurd h (Ty.head_ne rfl)
      · exact absurd h.symm (Ty.head_ne rfl)
      · exact h
    obtain ⟨rfl,htext⟩ := hthis
    obtain ⟨hforget,htext⟩ := htype type' _ _ (rest.follows hx) (rest'.follows hy) htext
    obtain ⟨hforget',htext⟩ := hrest rest' x y hx hy htext
    exact ⟨by simp only [forget,hforget,hforget'],htext⟩

theorem FunctionTy.reads_mk (flags : FunctionTypeFlags) (callConv : CallConvKind)
    {returnType : Ty} (asyncReturnType : AsyncReturnTy) {argArray : ArgTys} (serial : Option ℕ)
    (hreturn : returnType.Reads) (hargs : argArray.Reads) :
    (FunctionTy.mk flags callConv returnType asyncReturnType argArray serial).Reads := by
  intro type' x y h
  rcases type' with ⟨flags',callConv',returnType',asyncReturnType',argArray',serial'⟩
  simp only [signature,List.cons_append,List.append_assoc,List.nil_append,List.cons.injEq,
    true_and] at h
  obtain ⟨hflags,h⟩ := append_inj_of_class flags.signature_letters flags'.signature_letters
    (callConv.head_upper _) (callConv'.head_upper _) h
  obtain ⟨hcallConv,h⟩ := CallConvKind.signature_prefixFree _ _ _ _ h
  have hparen (z : List Char) : Follows ('(' :: z) := by
    intro hhead
    exact absurd (Option.some.inj hhead) (by decide)
  obtain ⟨hforget,h⟩ := hreturn returnType' _ _ (hparen _) (hparen _) h
  simp only [List.cons.injEq,true_and] at h
  obtain ⟨hforget',h⟩ := hargs argArray' _ _ (ends_args _ _) (ends_args _ _) h
  obtain ⟨hvarArg,hrest⟩ : flags.varArg = flags'.varArg ∧ x = y := by
    cases hv : flags.varArg <;> cases hv' : flags'.varArg <;> rw [hv,hv'] at h <;>
      simp [letterIf] at h ⊢ <;> exact h
  have hflags := FunctionTypeFlags.signature_inj hflags hvarArg
  exact ⟨by simp only [forget,hforget,hforget',hflags,hcallConv],hrest⟩

theorem Follows.ne_setter (hx : Follows x) (type : FunctionTy) :
    x ≠ type.signature ++ y := by
  intro h
  obtain ⟨s,hs⟩ := type.signature_eq_cons
  rw [h,hs] at hx
  exact hx rfl

theorem SetterTys.reads_nil : SetterTys.nil.Reads := by
  intro setters' x y hx hy h
  cases setters' with
  | nil => exact ⟨rfl,h⟩
  | cons type rest =>
    simp only [signature,List.nil_append,List.append_assoc] at h
    exact absurd h (hx.ne_setter type)

theorem SetterTys.reads_cons {type : FunctionTy} {rest : SetterTys} (htype : type.Reads)
    (hrest : rest.Reads) : (SetterTys.cons type rest).Reads := by
  intro setters' x y hx hy h
  cases setters' with
  | nil =>
    simp only [signature,List.nil_append,List.append_assoc] at h
    exact absurd h.symm (hy.ne_setter type)
  | cons type' rest' =>
    simp only [signature,List.append_assoc] at h
    obtain ⟨hforget,h⟩ := htype type' _ _ h
    obtain ⟨hforget',h⟩ := hrest rest' x y hx hy h
    exact ⟨by simp only [forget,hforget,hforget'],h⟩

theorem PropertyTy.reads_mk (isConst bindable : Bool) {getterType : FunctionTy}
    {setterType : SetterTys} (hgetter : getterType.Reads) (hsetter : setterType.Reads) :
    (PropertyTy.mk isConst bindable getterType setterType).Reads := by
  intro type' x y hx hy h
  rcases type' with ⟨isConst',bindable',getterType',setterType'⟩
  simp only [signature,List.cons_append,List.append_assoc,List.cons.injEq,true_and] at h
  have hbindable : bindable = bindable' ∧ getterType.signature ++ (setterType.signature ++ x) =
      getterType'.signature ++ (setterType'.signature ++ y) := by
    obtain ⟨s,hs⟩ := getterType.signature_eq_cons
    obtain ⟨s',hs'⟩ := getterType'.signature_eq_cons
    rw [hs,hs'] at h ⊢
    cases bindable <;> cases bindable' <;> simp [letterIf] at h ⊢ <;> exact h
  obtain ⟨rfl,htext⟩ := hbindable
  obtain ⟨hforget,htext⟩ := hgetter getterType' _ _ htext
  obtain ⟨hforget',htext⟩ := hsetter setterType' x y hx hy htext
  exact ⟨by simp only [forget,hforget,hforget'],htext⟩

mutual

theorem Ty.reads : ∀ type : Ty, type.Reads
  | .primitive kind => Ty.reads_primitive kind
  | .named kind linkId => Ty.reads_named kind linkId
  | .array elementType elementCount serial =>
    Ty.reads_array elementCount serial elementType.reads
  | .dataPtr isRef ptrKind flags bits targetType =>
    Ty.reads_dataPtr isRef ptrKind flags bits targetType.reads
  | .classPtr isRef ptrKind flags targetType => Ty.reads_classPtr isRef ptrKind flags targetType
  | .functionPtr isRef ptrKind flags targetType =>
    Ty.reads_functionPtr isRef ptrKind flags targetType.reads
  | .propertyPtr isRef ptrKind flags targetType =>
    Ty.reads_propertyPtr isRef ptrKind flags targetType.reads

theorem FunctionTy.reads : ∀ type : FunctionTy, type.Reads
  | .mk flags callConv returnType asyncReturnType argArray serial =>
    FunctionTy.reads_mk flags callConv asyncReturnType serial returnType.reads argArray.reads

theorem ArgTys.reads : ∀ args : ArgTys, args.Reads
  | .nil => ArgTys.reads_nil
  | .cons isThis type rest => ArgTys.reads_cons isThis type.reads rest.reads

theorem PropertyTy.reads : ∀ type : PropertyTy, type.Reads
  | .mk isConst bindable getterType setterType =>
    PropertyTy.reads_mk isConst bindable getterType.reads setterType.reads

theorem SetterTys.reads : ∀ setters : SetterTys, setters.Reads
  | .nil => SetterTys.reads_nil
  | .cons type rest => SetterTys.reads_cons type.reads rest.reads

end

theorem signature_eq_iff_of_reads {T : Type} {signature : T → List Char} {forget : T → T}
    (hforget : ∀ type, signature (forget type) = signature type)
    (hreads : ∀ type type', signature type ++ [] = signature type' ++ [] →
      forget type = forget type') {type type' : T} :
    signature type = signature type' ↔ forget type = forget type' := by
  constructor
  · intro h
    exact hreads type type' (by rw [h])
  · intro h
    rw [← hforget type,h,hforget]

theorem Ty.signature_eq_iff {type type' : Ty} :
    type.signature = type'.signature ↔ type.forget = type'.forget :=
  signature_eq_iff_of_reads Ty.signature_forget fun type type' h =>
    (type.reads type' [] [] (by simp [Follows]) (by simp [Follows]) h).1

theorem FunctionTy.signature_eq_iff {type type' : FunctionTy} :
    type.signature = type'.signature ↔ type.forget = type'.forget :=
  signature_eq_iff_of_reads FunctionTy.signature_forget fun type type' h =>
    (type.reads type' [] [] h).1

theorem PropertyTy.signature_eq_iff {type type' : PropertyTy} :
    type.signature = type'.signature ↔ type.forget = type'.forget :=
  signature_eq_iff_of_reads PropertyTy.signature_forget fun type type' h =>
    (type.reads type' [] [] (by simp [Follows]) (by simp [Follows]) h).1

end Jancy.Ct.Types
