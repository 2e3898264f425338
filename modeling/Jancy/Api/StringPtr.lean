import Mathlib.Data.BitVec

/-! Strings taken from data pointers: the lengths are differences of addresses in `size_t`. -/
namespace Jancy.Api.StringPtr

abbrev Address := BitVec 64

abbrev Size := BitVec 64

abbrev Memory := Address → BitVec 8

/-- The range that a data pointer may access; no range starts at the null address. -/
structure Validator where
  rangeBegin : Address
  rangeEnd : Address
  isTargetBoxInvalid : Bool
  begin_pos : 0 < rangeBegin.toNat
  begin_le_end : rangeBegin.toNat ≤ rangeEnd.toNat

structure DataPtr where
  p : Address
  validator : Option Validator

def nullDataPtr : DataPtr := ⟨0,none⟩

structure String where
  ptr : DataPtr
  ptr_sz : DataPtr
  length : Size

/-- Bytes read or written through a pointer with the given validator. -/
structure Access where
  validator : Option Validator
  first : Address
  size : ℕ
  isWrite : Bool

/-- What a call accesses and what it returns, or nothing if it throws. -/
structure Effect (α : Type) where
  accesses : List Access
  result : Option α

/-- The bytes are those of `[p,p + size)`, up to the first zero. -/
def memchr (mem : Memory) (p : Address) : ℕ → Option ℕ
  | 0 => none
  | size + 1 => if mem p = 0 then some 0 else (memchr mem (p + 1) size).map (· + 1)

def memchrSize (mem : Memory) (p : Address) (size : ℕ) : ℕ :=
  match memchr mem p size with
  | none => size
  | some i => i + 1

variable (mem : Memory)

/-- No memory is looked at through a null validator, below the range or in an invalid box. -/
def isSkipped (ptr : DataPtr) (v : Validator) : Bool :=
  ptr.p < v.rangeBegin || v.isTargetBoxInvalid

def String.setPtr (ptr : DataPtr) (length : Size) : Effect String :=
  match ptr.validator with
  | none => ⟨[],some ⟨ptr,nullDataPtr,0⟩⟩
  | some v =>
      if isSkipped ptr v then ⟨[],some ⟨ptr,nullDataPtr,0⟩⟩
      else if length = -1 then
        let size := v.rangeEnd - ptr.p
        ⟨[⟨some v,ptr.p,memchrSize mem ptr.p size.toNat,false⟩],some (
          match memchr mem ptr.p size.toNat with
          | some i => ⟨ptr,ptr,BitVec.ofNat 64 i⟩
          | none => ⟨ptr,nullDataPtr,size⟩)⟩
      else if ptr.p + length < v.rangeEnd then
        ⟨[⟨some v,ptr.p + length,1,false⟩],
          some ⟨ptr,if mem (ptr.p + length) = 0 then ptr else nullDataPtr,length⟩⟩
      else ⟨[],some ⟨ptr,nullDataPtr,v.rangeEnd - ptr.p⟩⟩

def strLenSize (ptr : DataPtr) : Size :=
  match ptr.validator with
  | none => 0
  | some v =>
      if isSkipped ptr v then 0
      else
        match memchr mem ptr.p (v.rangeEnd - ptr.p).toNat with
        | some i => BitVec.ofNat 64 i
        | none => v.rangeEnd - ptr.p

def strLenAccesses (ptr : DataPtr) : List Access :=
  match ptr.validator with
  | none => []
  | some v =>
      if isSkipped ptr v then []
      else [⟨some v,ptr.p,memchrSize mem ptr.p (v.rangeEnd - ptr.p).toNat,false⟩]

def strLen (ptr : DataPtr) : Effect Size := ⟨strLenAccesses mem ptr,some (strLenSize mem ptr)⟩

/-- The `size` of the source is not used. -/
def strCpy (dstPtr srcPtr : DataPtr) (_size : Size) : Effect Unit :=
  match dstPtr.validator with
  | none => ⟨[],none⟩
  | some v =>
      let dstLength := if dstPtr.p < v.rangeEnd then v.rangeEnd - dstPtr.p else 0
      let srcLength := strLenSize mem srcPtr
      ⟨strLenAccesses mem srcPtr ++
        (if dstLength ≤ srcLength then
          [⟨some v,dstPtr.p,dstLength.toNat,true⟩,
            ⟨srcPtr.validator,srcPtr.p,dstLength.toNat,false⟩]
        else
          [⟨some v,dstPtr.p,srcLength.toNat,true⟩,
            ⟨srcPtr.validator,srcPtr.p,srcLength.toNat,false⟩,
            ⟨some v,dstPtr.p + srcLength,1,true⟩]),some ()⟩

/-- A buffer of the given size: its bytes are all of the address space, and not at null. -/
structure Buffer (size : Size) where
  p : Address
  pos : 0 < p.toNat
  bound : p.toNat + size.toNat < 2 ^ 64

theorem Buffer.end_toNat {size : Size} (b : Buffer size) :
    (b.p + size).toNat = b.p.toNat + size.toNat := by
  rw [BitVec.toNat_add,Nat.mod_eq_of_lt b.bound]

def Buffer.validator {size : Size} (b : Buffer size) : Validator where
  rangeBegin := b.p
  rangeEnd := b.p + size
  isTargetBoxInvalid := false
  begin_pos := b.pos
  begin_le_end := by
    rw [b.end_toNat]
    exact Nat.le_add_right _ _

variable (allocateBuffer : (size : Size) → Option (Buffer size))

def memCat (ptr1 : DataPtr) (size1 : Size) (ptr2 : DataPtr) (size2 : Size) : Effect DataPtr :=
  match allocateBuffer (size1 + size2) with
  | none => ⟨[],none⟩
  | some buffer =>
      ⟨(if ptr1.p = 0 then []
          else [⟨ptr1.validator,ptr1.p,size1.toNat,false⟩,
            ⟨some buffer.validator,buffer.p,size1.toNat,true⟩]) ++
        (if ptr2.p = 0 then []
          else [⟨ptr2.validator,ptr2.p,size2.toNat,false⟩,
            ⟨some buffer.validator,buffer.p + size1,size2.toNat,true⟩]),
        some ⟨buffer.p,some buffer.validator⟩⟩

def strCat (ptr1 ptr2 : DataPtr) : Effect DataPtr :=
  let length1 := strLenSize mem ptr1
  let length2 := strLenSize mem ptr2
  let cat := memCat allocateBuffer ptr1 length1 ptr2 (length2 + 1)
  ⟨strLenAccesses mem ptr1 ++ strLenAccesses mem ptr2 ++ cat.accesses,cat.result⟩

def stringIncrement (string : String) (delta : Size) : String :=
  let delta := if delta ≥ string.length then string.length else delta
  if delta = 0 then string
  else
    { ptr := { string.ptr with p := string.ptr.p + delta }
      ptr_sz :=
        if string.ptr_sz.p = 0 then string.ptr_sz
        else { string.ptr_sz with p := string.ptr_sz.p + delta }
      length := string.length - delta }

def Access.InRange (a : Access) : Prop :=
  a.size = 0 ∨ ∃ v, a.validator = some v ∧ v.rangeBegin.toNat ≤ a.first.toNat ∧
    a.first.toNat + a.size ≤ v.rangeEnd.toNat

def Effect.InRange {α : Type} (e : Effect α) : Prop := ∀ a ∈ e.accesses, a.InRange

/-- The bytes of a string are in the range of its pointer; and if it is marked as null-terminated,
so is the byte after them, which is a zero. -/
structure String.Sound (s : String) : Prop where
  inRange : s.length = 0 ∨ ∃ v, s.ptr.validator = some v ∧
    v.rangeBegin.toNat ≤ s.ptr.p.toNat ∧ s.ptr.p.toNat + s.length.toNat ≤ v.rangeEnd.toNat
  terminated : s.ptr_sz.p ≠ 0 → ∃ v, s.ptr.validator = some v ∧
    v.rangeBegin.toNat ≤ s.ptr.p.toNat ∧ s.ptr.p.toNat + s.length.toNat < v.rangeEnd.toNat ∧
    mem (s.ptr.p + s.length) = 0

/-- The pointer is not past its range, if memory is looked at. -/
def DataPtr.NotPast (ptr : DataPtr) : Prop :=
  ∀ v, ptr.validator = some v → isSkipped ptr v = false → ptr.p.toNat ≤ v.rangeEnd.toNat

/-- The length does not reach around the end of the address space. -/
def DataPtr.Reaches (ptr : DataPtr) (length : Size) : Prop :=
  ∀ v, ptr.validator = some v → isSkipped ptr v = false →
    length = -1 ∨ ptr.p.toNat + length.toNat < 2 ^ 64

/-- The bytes of the string at a pointer, up to a zero or to the end of the range. -/
def DataPtr.content (ptr : DataPtr) : ℕ :=
  match ptr.validator with
  | none => 0
  | some v =>
      if isSkipped ptr v then 0
      else
        let size := v.rangeEnd.toNat - ptr.p.toNat
        (memchr mem ptr.p size).getD size

/-- The byte after the string is in the range, too. -/
def DataPtr.Terminated (ptr : DataPtr) : Prop :=
  ∃ v, ptr.validator = some v ∧ v.rangeBegin.toNat ≤ ptr.p.toNat ∧
    ptr.p.toNat + ptr.content mem < v.rangeEnd.toNat

end Jancy.Api.StringPtr
