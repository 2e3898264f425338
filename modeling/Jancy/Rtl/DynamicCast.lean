import Mathlib.Data.List.Basic

/-! Dynamic casts of data pointers: what `dynamicCastDataPtr` finds in a box, and which object of
the requested type contains the address. -/
namespace Jancy.Rtl.DynamicCast

/-- A base slot or a field. -/
structure Slot (T : Type) where
  offset : ℕ
  type : T

inductive TypeKind (T : Type) where
  | plain
  | array (elementType : T) (count : ℕ)
  | struct (isAdapter : Bool) (baseTypes fields : List (Slot T))
  | union (fields : List (Slot T))
  | class (baseTypes fields : List (Slot T))

namespace TypeKind

variable {T : Type}

def baseTypes : TypeKind T → List (Slot T)
  | struct _ baseTypes _ | «class» baseTypes _ => baseTypes
  | plain | array _ _ | union _ => []

def fields : TypeKind T → List (Slot T)
  | struct _ _ fields | union fields | «class» _ fields => fields
  | plain | array _ _ => []

def isAdapter : TypeKind T → Bool
  | struct isAdapter _ _ => isAdapter
  | plain | array _ _ | union _ | «class» _ _ => false

def IsArray (kind : TypeKind T) : Prop := ∃ elementType count,kind = array elementType count

instance : DecidablePred (IsArray (T := T))
  | array elementType count => isTrue ⟨elementType,count,rfl⟩
  | plain | struct _ _ _ | union _ | «class» _ _ => isFalse nofun

end TypeKind

/-- Types that are laid out: everything is inside of what it is a part of. -/
structure Types (T : Type) where
  kind : T → TypeKind T
  size : T → ℕ
  /-- Types are made of earlier ones. -/
  rank : T → ℕ
  element_rank : ∀ {type elementType count},kind type = .array elementType count →
    rank elementType < rank type
  element_size : ∀ {type elementType count},kind type = .array elementType count →
    size type = count * size elementType
  slot_rank : ∀ {type slot},slot ∈ (kind type).baseTypes ++ (kind type).fields →
    rank slot.type < rank type
  slot_size : ∀ {type slot},slot ∈ (kind type).baseTypes ++ (kind type).fields →
    slot.offset + size slot.type ≤ size type
  /-- An adapter has the layout of its base. -/
  adapter_offset : ∀ {type slot},(kind type).isAdapter = true →
    slot ∈ (kind type).baseTypes → slot.offset = 0

variable {T : Type} [DecidableEq T] (types : Types T)

/-- A base of the requested type, or the first one that has such a base. The recursion ends at the
rank of the type. -/
def findBaseTypeTraverseImpl (type : T) : ℕ → T → Option ℕ
  | 0,_ => none
  | level + 1,derivedType =>
      match (types.kind derivedType).baseTypes.find? (·.type = type) with
      | some slot => some (if (types.kind derivedType).isAdapter then 0 else slot.offset)
      | none =>
          (types.kind derivedType).baseTypes.findSome? fun slot =>
            (findBaseTypeTraverseImpl type level slot.type).map (· + slot.offset)

def findBaseTypeOffset (derivedType type : T) : Option ℕ :=
  findBaseTypeTraverseImpl types type (types.rank derivedType) derivedType

structure Box (T : Type) where
  type : T
  address : ℕ
  /-- `BoxFlag_Detached` and the pointer of a detached box, as a static one. -/
  detached : Option ℕ
  /-- `BoxFlag_DynamicArray`: elements of the type. -/
  dynamicCount : Option ℕ

def sizeofBox : ℕ := 16

def sizeofDataBox : ℕ := 48

namespace Box

variable (box : Box T)

def data : ℕ :=
  match types.kind box.type,box.detached with
  | .class _ _,_ => box.address + sizeofBox
  | _,some p => p
  | _,none => box.address + sizeofDataBox

def count : ℕ := box.dynamicCount.getD 1

end Box

def stripArrays (address : ℕ) : ℕ → T → ℕ → T × ℕ
  | 0,type,p => (type,p)
  | level + 1,type,p =>
      match types.kind type with
      | .array elementType _ =>
          let size := if types.size elementType = 0 then 1 else types.size elementType
          stripArrays address level elementType (address - (address - p) % size)
      | _ => (type,p)

def dynamicCastDataPtr (validator : Option (Box T)) (address : ℕ) (type : T) : Option ℕ :=
  match validator with
  | none => none
  | some box =>
      let p := box.data types
      if address < p then none
      else
        let (srcType,p) := stripArrays types address (types.rank box.type) box.type p
        if srcType = type then some p
        else
          match types.kind srcType with
          | .struct _ _ _ => (findBaseTypeOffset types srcType type).map (p + ·)
          | _ => none

inductive Subobject : T → ℕ → T → Prop
  | self (type : T) : Subobject type 0 type
  | element {type elementType subtype : T} {count i offset : ℕ}
      (hkind : types.kind type = .array elementType count) (hi : i < count)
      (h : Subobject elementType offset subtype) :
      Subobject type (i * types.size elementType + offset) subtype
  | slot {type subtype : T} {slot : Slot T} {offset : ℕ}
      (hslot : slot ∈ (types.kind type).baseTypes ++ (types.kind type).fields)
      (h : Subobject slot.type offset subtype) : Subobject type (slot.offset + offset) subtype

/-- An object in the box, or in one of the elements of a dynamic array. -/
def Box.Contains (box : Box T) (p : ℕ) (type : T) : Prop :=
  ∃ i < box.count,∃ offset,Subobject types box.type offset type ∧
    p = box.data types + (i * types.size box.type + offset)

def Covers (p : ℕ) (type : T) (address : ℕ) : Prop := p ≤ address ∧ address < p + types.size type

/-- The result is such an object, and there is a result if there is one. -/
def Meets (box : Box T) (address : ℕ) (type : T) : Prop :=
  match dynamicCastDataPtr types (some box) address type with
  | some p => box.Contains types p type ∧ Covers types p type address
  | none => ∀ p,box.Contains types p type → ¬Covers types p type address

def elementType : ℕ → T → T
  | 0,type => type
  | level + 1,type =>
      match types.kind type with
      | .array subtype _ => elementType level subtype
      | _ => type

def arrayTypes : ℕ → T → List T
  | 0,_ => []
  | level + 1,type =>
      match types.kind type with
      | .array subtype _ => type :: arrayTypes level subtype
      | _ => []

/-- The base of a struct that the cast looks for. -/
def baseOffset (srcType type : T) : Option ℕ :=
  match types.kind srcType with
  | .struct _ _ _ => findBaseTypeOffset types srcType type
  | _ => none

/-- The innermost element is requested, or a base of it that contains the address, or neither an
array nor a part of the element that contains the address. The elements of a dynamic array are told
apart only if they are arrays: the others all pass for the first one. -/
def Fits (box : Box T) (address : ℕ) (type : T) : Prop :=
  let srcType := elementType types (types.rank box.type) box.type
  let offset := (address - box.data types) % types.size srcType
  let offset' :=
    if (types.kind box.type).IsArray then offset else address - box.data types
  if srcType = type then offset' < types.size type
  else
    match baseOffset types srcType type with
    | some baseOffset => baseOffset ≤ offset' ∧ offset' < baseOffset + types.size type
    | none => type ∉ arrayTypes types (types.rank box.type) box.type ∧
        ∀ partOffset,Subobject types srcType partOffset type →
          ¬Covers types partOffset type offset

end Jancy.Rtl.DynamicCast

/-! Which dynamic casts of data pointers find the object of the requested type. -/
namespace Jancy.Rtl.DynamicCast

variable {T : Type} {types : Types T} {type subtype : T} {level offset x address p : ℕ}

theorem Subobject.le_size (h : Subobject types type offset subtype) :
    offset + types.size subtype ≤ types.size type := by
  induction h with
  | self type => exact Nat.le_of_eq (Nat.zero_add _)
  | @element type elementType _ count i offset hkind hi _ ih =>
    have hmul : (i + 1) * types.size elementType ≤ count * types.size elementType :=
      Nat.mul_le_mul_right _ hi
    rw [types.element_size hkind]
    rw [Nat.succ_mul] at hmul
    omega
  | @slot type _ slot offset hslot _ ih =>
    have := types.slot_size hslot
    omega

theorem subobject_array_iff {element : T} {count : ℕ} (hkind : types.kind type = .array element count) :
    Subobject types type offset subtype ↔ (offset = 0 ∧ subtype = type) ∨
      ∃ i < count,∃ inner,Subobject types element inner subtype ∧
        offset = i * types.size element + inner := by
  constructor
  · intro h
    cases h with
    | self => exact Or.inl ⟨rfl,rfl⟩
    | element hkind' hi h =>
      obtain ⟨rfl,rfl⟩ : _ = element ∧ _ = count := by simpa [hkind] using hkind'.symm
      exact Or.inr ⟨_,hi,_,h,rfl⟩
    | slot hslot _ => simp [hkind,TypeKind.baseTypes,TypeKind.fields] at hslot
  · rintro (⟨rfl,rfl⟩ | ⟨i,hi,inner,h,rfl⟩)
    · exact Subobject.self _
    · exact Subobject.element hkind hi h

theorem covers_element_iff {i size inner : ℕ} (hle : inner + types.size subtype ≤ size)
    (hsize : 0 < size) :
    Covers types (i * size + inner) subtype x ↔
      i = x / size ∧ Covers types inner subtype (x % size) := by
  have hdiv := Nat.div_add_mod x size
  unfold Covers
  constructor
  · rintro ⟨hlow,hhigh⟩
    have hi : i = x / size := by
      refine ((Nat.div_eq_iff hsize).2 ⟨?_,?_⟩).symm
      · omega
      · omega
    subst hi
    rw [Nat.mul_comm] at hlow hhigh
    exact ⟨rfl,by omega,by omega⟩
  · rintro ⟨rfl,hlow,hhigh⟩
    rw [Nat.mul_comm]
    omega

theorem elementType_of_not_isArray (h : ¬(types.kind type).IsArray) (level : ℕ) :
    elementType types level type = type := by
  cases level with
  | zero => rfl
  | succ level =>
    unfold elementType
    split
    next subtype count hkind => exact absurd ⟨subtype,count,hkind⟩ h
    next => rfl

theorem elementType_succ {element : T} {count : ℕ} (hkind : types.kind type = .array element count)
    (level : ℕ) : elementType types (level + 1) type = elementType types level element := by
  simp only [elementType,hkind]

theorem arrayTypes_of_not_isArray (h : ¬(types.kind type).IsArray) (level : ℕ) :
    arrayTypes types level type = [] := by
  cases level with
  | zero => rfl
  | succ level =>
    unfold arrayTypes
    split
    next subtype count hkind => exact absurd ⟨subtype,count,hkind⟩ h
    next => rfl

theorem arrayTypes_succ {element : T} {count : ℕ} (hkind : types.kind type = .array element count)
    (level : ℕ) : arrayTypes types (level + 1) type = type :: arrayTypes types level element := by
  simp only [arrayTypes,hkind]

theorem array_cases (hrank : types.rank type ≤ level) :
    (¬(types.kind type).IsArray) ∨ ∃ element count below,types.kind type = .array element count ∧
      level = below + 1 ∧ types.rank element ≤ below := by
  by_cases h : (types.kind type).IsArray
  · obtain ⟨element,count,hkind⟩ := h
    have hlt := types.element_rank hkind
    exact Or.inr ⟨element,count,level - 1,hkind,by omega,by omega⟩
  · exact Or.inl h

theorem elementType_size_dvd (hrank : types.rank type ≤ level) :
    types.size (elementType types level type) ∣ types.size type := by
  induction level generalizing type with
  | zero => exact Nat.dvd_refl _
  | succ level ih =>
    rcases array_cases hrank with hno | ⟨element,count,below,hkind,hlevel,hrank'⟩
    · simp only [elementType_of_not_isArray hno,Nat.dvd_refl]
    · obtain rfl : level = below := Nat.succ.inj hlevel
      rw [elementType_succ hkind,types.element_size hkind]
      exact Nat.dvd_mul_left_of_dvd (ih hrank') _

theorem covered_iff (subtype : T) (hrank : types.rank type ≤ level) (hx : x < types.size type) :
    (∃ offset,Subobject types type offset subtype ∧ Covers types offset subtype x) ↔
      subtype ∈ arrayTypes types level type ∨
        ∃ offset,Subobject types (elementType types level type) offset subtype ∧
          Covers types offset subtype (x % types.size (elementType types level type)) := by
  induction level generalizing type x with
  | zero =>
    have hno : ¬(types.kind type).IsArray := by
      rintro ⟨element,count,hkind⟩
      have := types.element_rank hkind
      omega
    rw [arrayTypes_of_not_isArray hno,elementType_of_not_isArray hno,Nat.mod_eq_of_lt hx]
    simp
  | succ level ih =>
    rcases array_cases hrank with hno | ⟨element,count,below,hkind,hlevel,hrank'⟩
    · rw [arrayTypes_of_not_isArray hno,elementType_of_not_isArray hno,Nat.mod_eq_of_lt hx]
      simp
    obtain rfl : level = below := Nat.succ.inj hlevel
    have hsize := types.element_size hkind
    have hpos : 0 < types.size element := by
      refine Nat.pos_of_ne_zero fun hzero => ?_
      rw [hsize,hzero] at hx
      omega
    have hmod := Nat.mod_lt x hpos
    rw [arrayTypes_succ hkind,elementType_succ hkind,List.mem_cons,or_assoc,
      ← Nat.mod_mod_of_dvd x (elementType_size_dvd hrank'),← ih hrank' hmod]
    constructor
    · rintro ⟨offset,hsub,hcovers⟩
      rcases (subobject_array_iff hkind).1 hsub with ⟨-,rfl⟩ | ⟨i,-,inner,hsub',rfl⟩
      · exact Or.inl rfl
      · exact Or.inr ⟨inner,hsub',((covers_element_iff hsub'.le_size hpos).1 hcovers).2⟩
    · rintro (rfl | ⟨inner,hsub,hcovers⟩)
      · exact ⟨0,Subobject.self _,Nat.zero_le x,by omega⟩
      · refine ⟨x / types.size element * types.size element + inner,?_,?_⟩
        · refine Subobject.element hkind ?_ hsub
          rw [Nat.div_lt_iff_lt_mul hpos]
          omega
        · exact (covers_element_iff hsub.le_size hpos).2 ⟨rfl,hcovers⟩

theorem subobject_of_element (hrank : types.rank type ≤ level) (hx : x < types.size type)
    (h : Subobject types (elementType types level type) offset subtype) :
    Subobject types type (x - x % types.size (elementType types level type) + offset) subtype := by
  induction level generalizing type x with
  | zero =>
    have hzero : x - x % types.size type = 0 := by
      rw [Nat.mod_eq_of_lt hx,Nat.sub_self]
    show Subobject types type (x - x % types.size type + offset) subtype
    rw [hzero,Nat.zero_add]
    exact h
  | succ level ih =>
    rcases array_cases hrank with hno | ⟨element,count,below,hkind,hlevel,hrank'⟩
    · rw [elementType_of_not_isArray hno] at h ⊢
      rwa [Nat.mod_eq_of_lt hx,Nat.sub_self,Nat.zero_add]
    obtain rfl : level = below := Nat.succ.inj hlevel
    have hsize := types.element_size hkind
    have hpos : 0 < types.size element := by
      refine Nat.pos_of_ne_zero fun hzero => ?_
      rw [hsize,hzero] at hx
      omega
    rw [elementType_succ hkind] at h ⊢
    have hinner := ih hrank' (Nat.mod_lt x hpos) h
    rw [Nat.mod_mod_of_dvd x (elementType_size_dvd hrank')] at hinner
    have hi : x / types.size element < count := by
      rw [Nat.div_lt_iff_lt_mul hpos]
      omega
    have hle : x % types.size (elementType types level element) ≤ x % types.size element := by
      rw [← Nat.mod_mod_of_dvd x (elementType_size_dvd hrank')]
      exact Nat.mod_le ..
    have hdiv := Nat.div_add_mod' x (types.size element)
    have hoffset : x - x % types.size (elementType types level element) + offset =
        x / types.size element * types.size element +
          (x % types.size element - x % types.size (elementType types level element) + offset) := by
      omega
    rw [hoffset]
    exact Subobject.element hkind hi hinner

theorem findBaseTypeTraverseImpl_subobject [DecidableEq T] (level : ℕ) {derivedType : T}
    (h : findBaseTypeTraverseImpl types type level derivedType = some offset) :
    Subobject types derivedType offset type := by
  induction level generalizing derivedType offset with
  | zero => cases h
  | succ level ih =>
    unfold findBaseTypeTraverseImpl at h
    split at h
    next slot hfind =>
      have hmem := List.mem_of_find?_eq_some hfind
      have htype : slot.type = type := by simpa using List.find?_some hfind
      have hoffset : offset = slot.offset := by
        rw [← Option.some.inj h]
        split
        next hadapter => exact (types.adapter_offset hadapter hmem).symm
        next => rfl
      rw [hoffset,← htype]
      exact Subobject.slot (List.mem_append_left _ hmem) (Subobject.self _)
    next =>
      obtain ⟨slot,hmem,hslot⟩ := List.exists_of_findSome?_eq_some h
      obtain ⟨inner,hinner,rfl⟩ := Option.map_eq_some_iff.1 hslot
      rw [Nat.add_comm]
      exact Subobject.slot (List.mem_append_left _ hmem) (ih hinner)

theorem baseOffset_subobject [DecidableEq T] {srcType : T}
    (h : baseOffset types srcType type = some offset) : Subobject types srcType offset type := by
  unfold baseOffset at h
  split at h
  next => exact findBaseTypeTraverseImpl_subobject _ h
  next => cases h

theorem stripArrays_eq (hrank : types.rank type ≤ level) (hp : p ≤ address)
    (hpos : 0 < types.size type) :
    stripArrays types address level type p =
      (elementType types level type,
        if (types.kind type).IsArray then
          address - (address - p) % types.size (elementType types level type)
        else p) := by
  induction level generalizing type p with
  | zero =>
    refine Prod.ext rfl (if_neg fun ⟨element,count,hkind⟩ => ?_).symm
    have := types.element_rank hkind
    omega
  | succ level ih =>
    rcases array_cases hrank with hno | ⟨element,count,below,hkind,hlevel,hrank'⟩
    · rw [elementType_of_not_isArray hno,if_neg hno]
      unfold stripArrays
      split
      next element count hkind => exact absurd ⟨element,count,hkind⟩ hno
      next => rfl
    obtain rfl : level = below := Nat.succ.inj hlevel
    have hsize := types.element_size hkind
    have hpos' : 0 < types.size element := by
      refine Nat.pos_of_ne_zero fun hzero => ?_
      rw [hsize,hzero] at hpos
      omega
    have hmod := Nat.mod_le (address - p) (types.size element)
    rw [elementType_succ hkind,if_pos ⟨element,count,hkind⟩]
    simp only [stripArrays,hkind,if_neg (Nat.ne_of_gt hpos')]
    rw [ih hrank' (Nat.sub_le ..) hpos']
    refine Prod.ext rfl ?_
    show (if _ then _ else _) = _
    have hback : address - (address - (address - p) % types.size element) =
        (address - p) % types.size element := by omega
    rw [hback,Nat.mod_mod_of_dvd _ (elementType_size_dvd hrank')]
    split
    next => rfl
    next hno => rw [elementType_of_not_isArray hno]

theorem dynamicCastDataPtr_eq [DecidableEq T] {box : Box T} (hp : box.data types ≤ address)
    (hpos : 0 < types.size box.type) (type : T) :
    let srcType := elementType types (types.rank box.type) box.type
    let q := if (types.kind box.type).IsArray then
        address - (address - box.data types) % types.size srcType
      else box.data types
    dynamicCastDataPtr types (some box) address type =
      if srcType = type then some q else (baseOffset types srcType type).map (q + ·) := by
  simp only [dynamicCastDataPtr,if_neg (Nat.not_lt.2 hp)]
  rw [stripArrays_eq (Nat.le_refl _) hp hpos]
  refine if_congr Iff.rfl rfl ?_
  unfold baseOffset
  cases types.kind (elementType types (types.rank box.type) box.type) <;> rfl

section box

variable {box : Box T} (hlow : box.data types ≤ address)
  (hhigh : address < box.data types + box.count * types.size box.type)

include hlow hhigh

theorem size_pos_of_inside : 0 < types.size box.type := by
  refine Nat.pos_of_ne_zero fun hzero => ?_
  rw [hzero] at hhigh
  omega

theorem index_lt_count : (address - box.data types) / types.size box.type < box.count := by
  rw [Nat.div_lt_iff_lt_mul (size_pos_of_inside hlow hhigh)]
  omega

theorem contains_covers_iff (subtype : T) :
    (∃ p,box.Contains types p subtype ∧ Covers types p subtype address) ↔
      ∃ offset,Subobject types box.type offset subtype ∧
        Covers types offset subtype ((address - box.data types) % types.size box.type) := by
  have hpos := size_pos_of_inside hlow hhigh
  constructor
  · rintro ⟨p,⟨i,-,offset,hsub,rfl⟩,hcovers⟩
    have hcovers' : Covers types (i * types.size box.type + offset) subtype
        (address - box.data types) := by
      unfold Covers at hcovers ⊢
      omega
    exact ⟨offset,hsub,((covers_element_iff hsub.le_size hpos).1 hcovers').2⟩
  · rintro ⟨offset,hsub,hcovers⟩
    have hcovers' := (covers_element_iff hsub.le_size hpos).2 ⟨rfl,hcovers⟩
    refine ⟨_,⟨_,index_lt_count hlow hhigh,offset,hsub,rfl⟩,?_⟩
    unfold Covers at hcovers' ⊢
    omega

theorem contains_of_element {srcType : T}
    (hsrc : srcType = elementType types (types.rank box.type) box.type)
    (h : Subobject types srcType offset subtype) :
    box.Contains types ((if (types.kind box.type).IsArray then
        address - (address - box.data types) % types.size srcType
      else box.data types) + offset) subtype := by
  have hpos := size_pos_of_inside hlow hhigh
  have hindex := index_lt_count hlow hhigh
  subst hsrc
  split
  next harray =>
    have hmod := Nat.mod_lt (address - box.data types) hpos
    have hsub := subobject_of_element (Nat.le_refl _) hmod h
    have hdvd := elementType_size_dvd (Nat.le_refl (types.rank box.type))
    rw [Nat.mod_mod_of_dvd _ hdvd] at hsub
    refine ⟨_,hindex,_,hsub,?_⟩
    have hdiv := Nat.div_add_mod' (address - box.data types) (types.size box.type)
    have hle : (address - box.data types) %
        types.size (elementType types (types.rank box.type) box.type) ≤
        (address - box.data types) % types.size box.type := by
      rw [← Nat.mod_mod_of_dvd _ hdvd]
      exact Nat.mod_le ..
    omega
  next hno =>
    rw [elementType_of_not_isArray hno] at h
    exact ⟨0,Nat.lt_of_le_of_lt (Nat.zero_le _) hindex,offset,h,by omega⟩

end box

/-- A cast finds the object that is requested iff it is the innermost element or a base that
contains the address, and the element is not a later one of a dynamic array; or nothing contains
the address. -/
theorem dynamic_cast_iff [DecidableEq T] (types : Types T) (box : Box T) (address : ℕ) (type : T)
    (hlow : box.data types ≤ address)
    (hhigh : address < box.data types + box.count * types.size box.type) :
    Meets types box address type ↔ Fits types box address type := by
  have hpos := size_pos_of_inside hlow hhigh
  unfold Meets Fits
  rw [dynamicCastDataPtr_eq hlow hpos]
  simp only
  generalize hsrc : elementType types (types.rank box.type) box.type = srcType
  have hmod := Nat.mod_le (address - box.data types) (types.size srcType)
  generalize hq : (if (types.kind box.type).IsArray then
      address - (address - box.data types) % types.size srcType else box.data types) = q
  generalize hoffset : (if (types.kind box.type).IsArray then
      (address - box.data types) % types.size srcType else address - box.data types) = offset'
  have haddress : address = q + offset' := by
    rw [← hq,← hoffset]
    split <;> omega
  have hcontains : ∀ {offset subtype},Subobject types srcType offset subtype →
      box.Contains types (q + offset) subtype := by
    intro offset subtype h
    rw [← hq]
    exact contains_of_element hlow hhigh hsrc.symm h
  by_cases htype : srcType = type
  · subst htype
    rw [if_pos rfl,if_pos rfl]
    show (box.Contains types q srcType ∧ q ≤ address ∧ address < q + types.size srcType) ↔ _
    constructor
    · rintro ⟨-,-,hlt⟩
      omega
    · intro hlt
      exact ⟨hcontains (Subobject.self srcType),by omega,by omega⟩
  rw [if_neg htype,if_neg htype]
  cases hbase : baseOffset types srcType type with
  | some baseOffset =>
      show (box.Contains types (q + baseOffset) type ∧ q + baseOffset ≤ address ∧
        address < q + baseOffset + types.size type) ↔ _
      constructor
      · rintro ⟨-,hle,hlt⟩
        exact ⟨by omega,by omega⟩
      · rintro ⟨hle,hlt⟩
        exact ⟨hcontains (baseOffset_subobject hbase),by omega,by omega⟩
  | none =>
      show (∀ p,box.Contains types p type → ¬Covers types p type address) ↔ _
      have hsome := contains_covers_iff hlow hhigh type
      have hinner := covered_iff type (Nat.le_refl (types.rank box.type))
        (Nat.mod_lt (address - box.data types) hpos)
      have hdvd := elementType_size_dvd (Nat.le_refl (types.rank box.type))
      rw [Nat.mod_mod_of_dvd _ hdvd,hsrc] at hinner
      have hnone := not_congr (hsome.trans hinner)
      rw [not_or] at hnone
      push Not at hnone
      exact hnone

/-- Integers of four bytes. -/
def ints : Types Unit where
  kind _ := .plain
  size _ := 4
  rank _ := 0
  element_rank := nofun
  element_size := nofun
  slot_rank := nofun
  slot_size := nofun
  adapter_offset := nofun

/-- In the first element of a dynamic array, the cast finds the element. -/
theorem dynamic_cast_iff_first :
    Meets ints ⟨(),0,none,some 3⟩ 50 () ↔ Fits ints ⟨(),0,none,some 3⟩ 50 () :=
  dynamic_cast_iff ints ⟨(),0,none,some 3⟩ 50 () (by decide) (by decide)

/-- In the second one it still finds the first. -/
theorem not_the_element : ¬∀ (types : Types Unit) (box : Box Unit) (address : ℕ),
    box.data types ≤ address → address < box.data types + box.count * types.size box.type →
      Meets types box address () := by
  intro h
  have hmeets := h ints ⟨(),0,none,some 3⟩ 52 (by decide) (by decide)
  have hcovers : Covers ints 48 () 52 := hmeets.2
  unfold Covers at hcovers
  revert hcovers
  decide

end Jancy.Rtl.DynamicCast
