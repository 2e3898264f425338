import Jancy.Api.StringPtr

/-! The sizes of data boxes: what is allocated for a type, which range is published, and how many
elements the collector finds in it. -/
namespace Jancy.Rt.AllocSize

open Api.StringPtr (Address Size Buffer)

/-- `sizeof(DataBox)`: a type, flags, a root offset and a validator. -/
def sizeofDataBox : Size := 48

structure DataType where
  size : Size
  isGcRoot : Bool

structure DataBox where
  box : Address
  type : DataType
  isDynamicArray : Bool
  rangeBegin : Address
  rangeEnd : Address

structure Allocation where
  size : Size
  block : Buffer size
  dataBox : DataBox

variable (allocate : (size : Size) → Option (Buffer size))

/-- `size` is the size of the data behind the header. -/
def tryAllocate (type : DataType) (isDynamicArray : Bool) (size : Size) : Option Allocation :=
  (allocate (sizeofDataBox + size)).map fun block =>
    let rangeBegin := block.p + sizeofDataBox
    { size := sizeofDataBox + size
      block := block
      dataBox := ⟨block.p,type,isDynamicArray,rangeBegin,rangeBegin + size⟩ }

def tryAllocateData (type : DataType) : Option Allocation :=
  tryAllocate allocate type false type.size

def tryAllocateArray (type : DataType) (count : Size) : Option Allocation :=
  tryAllocate allocate type true (type.size * count)

def DataBox.getRangeLength (box : DataBox) : Size := box.rangeEnd - box.rangeBegin

/-- Nothing if it divides by zero. -/
def getDynamicArrayElementCount (box : DataBox) : Option Size :=
  if box.type.size = 0 then none else some (box.getRangeLength / box.type.size)

inductive Roots where
  | none
  | data (p : Address)
  | array (p : Address) (count : Size)
  deriving DecidableEq

/-- The roots that `markData` adds for a live box that was not marked yet. -/
def markData (box : DataBox) : Option Roots :=
  if !box.type.isGcRoot then some .none
  else if !box.isDynamicArray then some (.data (box.box + sizeofDataBox))
  else (getDynamicArrayElementCount box).map (Roots.array (box.box + sizeofDataBox))

/-- The size that `collect_l` counts for a box, freed or not. -/
def sweepSize (box : DataBox) : Option Size :=
  if box.isDynamicArray then (getDynamicArrayElementCount box).map (box.type.size * ·)
  else some box.type.size

/-- The block covers the header and the published range of that many bytes; nothing wraps. -/
structure Allocation.Covers (a : Allocation) (length : ℕ) : Prop where
  begin_eq : a.dataBox.rangeBegin.toNat = a.block.p.toNat + sizeofDataBox.toNat
  end_eq : a.dataBox.rangeEnd.toNat = a.dataBox.rangeBegin.toNat + length
  covered : a.dataBox.rangeEnd.toNat ≤ a.block.p.toNat + a.size.toNat

/-- The collector finds the elements that were asked for. -/
structure Allocation.Counts (a : Allocation) (count : Size) : Prop where
  marked : a.dataBox.type.isGcRoot = true →
    markData a.dataBox = some (.array a.dataBox.rangeBegin count)
  swept : getDynamicArrayElementCount a.dataBox = some count
  sweptSize : sweepSize a.dataBox = some (a.dataBox.type.size * count)

variable {allocate} {type : DataType} {count size : Size} {isDynamicArray : Bool} {a : Allocation}

theorem tryAllocate_covers (h : tryAllocate allocate type isDynamicArray size = some a)
    {length : ℕ} (hsize : size.toNat = length % 2 ^ 64) :
    a.Covers length ↔ sizeofDataBox.toNat + length < 2 ^ 64 := by
  obtain ⟨block,_,rfl⟩ := Option.map_eq_some_iff.1 h
  have hbound := block.bound
  constructor
  · intro hcovers
    have hbegin := hcovers.begin_eq
    have hend := hcovers.end_eq
    simp only at hbegin hend
    omega
  · intro hfits
    have hsum : (sizeofDataBox + size).toNat = sizeofDataBox.toNat + size.toNat := by
      rw [BitVec.toNat_add]
      omega
    have hbegin : (block.p + sizeofDataBox).toNat = block.p.toNat + sizeofDataBox.toNat := by
      rw [BitVec.toNat_add]
      omega
    have hend : (block.p + sizeofDataBox + size).toNat =
        (block.p + sizeofDataBox).toNat + length := by
      rw [BitVec.toNat_add]
      omega
    refine ⟨hbegin,hend,?_⟩
    show (block.p + sizeofDataBox + size).toNat ≤ block.p.toNat + (sizeofDataBox + size).toNat
    omega

theorem tryAllocateArray_counts (h : tryAllocateArray allocate type count = some a)
    (hpos : type.size ≠ 0) (hfits : type.size.toNat * count.toNat < 2 ^ 64) :
    a.Counts count := by
  obtain ⟨block,_,rfl⟩ := Option.map_eq_some_iff.1 h
  have hlength : block.p + sizeofDataBox + type.size * count - (block.p + sizeofDataBox) =
      type.size * count := by
    rw [BitVec.add_comm,BitVec.add_sub_cancel]
  have hdiv : type.size * count / type.size = count := by
    refine BitVec.eq_of_toNat_eq ?_
    have hsize_pos : 0 < type.size.toNat :=
      Nat.pos_of_ne_zero fun hzero => hpos (BitVec.eq_of_toNat_eq hzero)
    rw [BitVec.toNat_udiv,BitVec.toNat_mul,Nat.mod_eq_of_lt hfits,
      Nat.mul_div_cancel_left _ hsize_pos]
  have hcount : getDynamicArrayElementCount
      ⟨block.p,type,true,block.p + sizeofDataBox,
        block.p + sizeofDataBox + type.size * count⟩ = some count := by
    rw [getDynamicArrayElementCount,if_neg hpos]
    show some ((block.p + sizeofDataBox + type.size * count - _) / type.size) = _
    rw [hlength,hdiv]
  refine ⟨fun hroot => ?_,hcount,?_⟩
  · have hroot : type.isGcRoot = true := hroot
    simp only [markData,hroot,Bool.not_true,Bool.false_eq_true,if_false]
    rw [hcount]
    rfl
  · simp only [sweepSize,if_true]
    rw [hcount]
    rfl

/-- Allocation is sound exactly if it fails, or nothing wraps and the elements have a size. -/
theorem allocation_iff (allocate : (size : Size) → Option (Buffer size)) (type : DataType)
    (count : Size) :
    ((∀ a ∈ tryAllocateArray allocate type count,
        a.Covers (type.size.toNat * count.toNat) ∧ a.Counts count) ↔
      allocate (sizeofDataBox + type.size * count) = none ∨
        type.size ≠ 0 ∧ sizeofDataBox.toNat + type.size.toNat * count.toNat < 2 ^ 64) ∧
    ((∀ a ∈ tryAllocateData allocate type,
        a.Covers type.size.toNat ∧ sweepSize a.dataBox = some type.size) ↔
      allocate (sizeofDataBox + type.size) = none ∨
        sizeofDataBox.toNat + type.size.toNat < 2 ^ 64) := by
  constructor
  · cases hblock : allocate (sizeofDataBox + type.size * count) with
    | none => simp [tryAllocateArray,tryAllocate,hblock]
    | some block =>
        obtain ⟨a,ha⟩ : ∃ a, tryAllocateArray allocate type count = some a :=
          ⟨_,by rw [tryAllocateArray,tryAllocate,hblock]; rfl⟩
        have hcovers := tryAllocate_covers ha (BitVec.toNat_mul type.size count)
        simp only [ha,Option.mem_some_iff,forall_eq',hcovers,reduceCtorEq,false_or]
        constructor
        · rintro ⟨hfits,hcounts⟩
          refine ⟨fun hzero => ?_,hfits⟩
          have htype : a.dataBox.type = type := by
            obtain ⟨_,_,rfl⟩ := Option.map_eq_some_iff.1 ha
            rfl
          have hcount := hcounts.swept
          rw [getDynamicArrayElementCount,htype,if_pos hzero] at hcount
          cases hcount
        · rintro ⟨hpos,hfits⟩
          exact ⟨hfits,tryAllocateArray_counts ha hpos (by omega)⟩
  · cases hblock : allocate (sizeofDataBox + type.size) with
    | none => simp [tryAllocateData,tryAllocate,hblock]
    | some block =>
        obtain ⟨a,ha⟩ : ∃ a, tryAllocateData allocate type = some a :=
          ⟨_,by rw [tryAllocateData,tryAllocate,hblock]; rfl⟩
        have hcovers := tryAllocate_covers ha (Nat.mod_eq_of_lt type.size.isLt).symm
        have hswept : sweepSize a.dataBox = some type.size := by
          obtain ⟨_,_,rfl⟩ := Option.map_eq_some_iff.1 ha
          rfl
        simp only [ha,Option.mem_some_iff,forall_eq',hcovers,reduceCtorEq,false_or,hswept,and_true]

/-- Blocks are placed at one page, as long as they fit behind it. -/
def allocateAtPage (size : Size) : Option (Buffer size) :=
  if h : 4096 + size.toNat < 2 ^ 64 then some ⟨4096,by decide,h⟩ else none

/-- An array of 2 ^ 60 + 1 elements of 16 bytes is placed in a block of 64 bytes, and an array of
elements without a size makes the collector divide by zero. -/
theorem not_sound :
    (∃ a ∈ tryAllocateArray allocateAtPage ⟨16,false⟩ (BitVec.ofNat 64 (2 ^ 60 + 1)),
      a.size = 64 ∧ getDynamicArrayElementCount a.dataBox = some 1 ∧
        ¬a.Counts (BitVec.ofNat 64 (2 ^ 60 + 1))) ∧
    (∃ a ∈ tryAllocateArray allocateAtPage ⟨0,false⟩ 1, sweepSize a.dataBox = none) := by
  refine ⟨⟨_,rfl,by decide,by decide,fun h => ?_⟩,⟨_,rfl,by decide⟩⟩
  exact absurd h.swept (by decide)

end Jancy.Rt.AllocSize
