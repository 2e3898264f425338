import Jancy.Ct.ConstFolding

/-! An index expression on an array, constant or not, with a constant index. -/
namespace Jancy.Ct.ArrayIndex

/-- What the operator reads of an array type. A user-written element count is a positive
`int64_t`. -/
structure ArrayType where
  elementSize : ℕ
  elementCount : ℕ
  elementCount_lt : elementCount < 2 ^ 63

/-- `m_elementType->getSize() * m_elementCount`, a `size_t`. -/
def ArrayType.size (type : ArrayType) : ℕ := (type.elementSize * type.elementCount) % 2 ^ 64

/-- A constant in the memory of the compiler. -/
structure ConstData where
  address : BitVec 64
  bytes : List UInt8
  address_add_lt : address.toNat + bytes.length < 2 ^ 64

inductive DataPtrKind where
  | normal
  | thin
  deriving DecidableEq,Repr

inductive ConstArray (type : ArrayType) where
  | value (data : ConstData) (hsize : data.bytes.length = type.size)
  | ref (ptrKind : DataPtrKind) (p : BitVec 64)

/-- What an index expression gives. -/
inductive Indexed where
  | error
  /-- A constant with these bytes. -/
  | const (bytes : List UInt8)
  /-- A constant whose bytes are not all the array's. -/
  | outside
  | ref (ptrKind : DataPtrKind) (p : BitVec 64)
  deriving DecidableEq,Repr

/-- `Value::createConst` copies `size` bytes from `p`. -/
def createConst (data : ConstData) (p : BitVec 64) (size : ℕ) : Indexed :=
  if data.address.toNat ≤ p.toNat ∧ p.toNat + size ≤ data.address.toNat + data.bytes.length then
    .const ((data.bytes.drop (p.toNat - data.address.toNat)).take size)
  else .outside

section Operator

variable (type : ArrayType)

/-- `arrayIndexOperator` with two constants. -/
def arrayIndexOperator (array : ConstArray type) (index : BitVec 64) : Indexed :=
  let elementOffset := index * BitVec.ofNat 64 type.elementSize
  match array with
  | .value data _ => createConst data (data.address + elementOffset) type.elementSize
  | .ref ptrKind p => .ref ptrKind (p + elementOffset)

/-- `arrayIndexOperator` with the safe reference to a variable and a constant index: whether the
index is accepted. -/
def variableIndexOperator (index : BitVec 64) : Bool :=
  !(index.toInt < 0 || index.toInt ≥ (BitVec.ofNat 64 type.elementCount).toInt)

/-- `BinOp_Idx::op`: the index is cast to `intptr_t` first. -/
def op (array : ConstArray type) (kind : IntKind) (index : BitVec kind.width) : Indexed :=
  arrayIndexOperator type array (castInt kind .int64 index)

def variableOp (kind : IntKind) (index : BitVec kind.width) : Bool :=
  variableIndexOperator type (castInt kind .int64 index)

def element (array : ConstArray type) (i : ℕ) : Indexed :=
  match array with
  | .value data _ =>
      if (i + 1) * type.elementSize ≤ data.bytes.length then
        .const ((data.bytes.drop (i * type.elementSize)).take type.elementSize)
      else .outside
  | .ref ptrKind p => .ref ptrKind (p + BitVec.ofNat 64 (i * type.elementSize))

structure InBounds (array : ConstArray type) (kind : IntKind) (index : BitVec kind.width) :
    Prop where
  element : op type array kind index = .error ∨
    ∃ i : ℕ, intOf kind.isUnsigned index = i ∧ i < type.elementCount ∧
      op type array kind index = element type array i ∧ op type array kind index ≠ .outside
  accepted : op type array kind index ≠ .error ↔ variableOp type kind index = true

/-- The index is in bounds, and the array is not too large to have this element. -/
def Covers (array : ConstArray type) (i : ℤ) : Prop :=
  0 ≤ i ∧ i < type.elementCount ∧
    match array with
    | .value _ _ => (i + 1) * type.elementSize ≤ type.size
    | .ref _ _ => True

end Operator

variable {type : ArrayType}

theorem castInt_eq_ofInt (kind : IntKind) (index : BitVec kind.width) :
    castInt kind .int64 index = BitVec.ofInt 64 (intOf kind.isUnsigned index) := by
  unfold castInt intOf
  split
  · rw [BitVec.ofInt_natCast,BitVec.ofNat_toNat]
    rfl
  · rfl

theorem castInt_of_natCast {kind : IntKind} {index : BitVec kind.width} {i : ℕ}
    (h : intOf kind.isUnsigned index = i) : castInt kind .int64 index = BitVec.ofNat 64 i := by
  rw [castInt_eq_ofInt,h]
  exact BitVec.ofInt_natCast 64 i

theorem variableIndexOperator_of_lt {i : ℕ} (hi : i < type.elementCount) :
    variableIndexOperator type (BitVec.ofNat 64 i) = true := by
  have hcount := type.elementCount_lt
  have htoInt : ∀ n : ℕ, n < 2 ^ 63 → (BitVec.ofNat 64 n).toInt = n := by
    intro n hn
    have htoNat : (BitVec.ofNat 64 n).toNat = n := by
      rw [BitVec.toNat_ofNat,Nat.mod_eq_of_lt (by omega)]
    rw [BitVec.toInt_eq_toNat_of_lt (by omega),htoNat]
  unfold variableIndexOperator
  rw [htoInt i (by omega),htoInt _ hcount]
  simp
  omega

theorem createConst_element {data : ConstData} {i : ℕ}
    (hdata : (i + 1) * type.elementSize ≤ data.bytes.length) :
    createConst data (data.address + BitVec.ofNat 64 i * BitVec.ofNat 64 type.elementSize)
        type.elementSize =
      .const ((data.bytes.drop (i * type.elementSize)).take type.elementSize) := by
  have haddress := data.address_add_lt
  rw [Nat.add_mul,Nat.one_mul] at hdata
  have hp : (data.address + BitVec.ofNat 64 i * BitVec.ofNat 64 type.elementSize).toNat =
      data.address.toNat + i * type.elementSize := by
    rw [← BitVec.ofNat_mul,BitVec.toNat_add,BitVec.toNat_ofNat,Nat.add_mod_mod,
      Nat.mod_eq_of_lt (by omega)]
  unfold createConst
  rw [hp,if_pos ⟨Nat.le_add_right _ _,by omega⟩,Nat.add_sub_cancel_left]

theorem op_ne_error (array : ConstArray type) (kind : IntKind) (index : BitVec kind.width) :
    op type array kind index ≠ .error := by
  unfold op arrayIndexOperator
  dsimp only
  cases array with
  | value data hsize =>
    dsimp only
    unfold createConst
    split
    · exact fun h => Indexed.noConfusion h
    · exact fun h => Indexed.noConfusion h
  | ref ptrKind p => exact fun h => Indexed.noConfusion h

theorem op_eq_element {array : ConstArray type} {kind : IntKind} {index : BitVec kind.width} {i : ℕ}
    (h : intOf kind.isUnsigned index = i) (hcovers : Covers type array i) :
    op type array kind index = element type array i ∧ op type array kind index ≠ .outside := by
  unfold op arrayIndexOperator
  rw [castInt_of_natCast h]
  dsimp only
  cases array with
  | value data hsize =>
    have hdata : (i + 1) * type.elementSize ≤ data.bytes.length := by
      rw [hsize]
      exact_mod_cast hcovers.2.2
    dsimp only
    rw [createConst_element hdata,element,if_pos hdata]
    exact ⟨rfl,fun h => Indexed.noConfusion h⟩
  | ref ptrKind p =>
    dsimp only
    rw [← BitVec.ofNat_mul]
    exact ⟨rfl,fun h => Indexed.noConfusion h⟩

/-- An index expression on a constant array stays in bounds if and only if its index does. -/
theorem inBounds_iff (type : ArrayType) (array : ConstArray type) (kind : IntKind)
    (index : BitVec kind.width) :
    InBounds type array kind index ↔ Covers type array (intOf kind.isUnsigned index) := by
  constructor
  · rintro ⟨helement,-⟩
    obtain ⟨i,hi,hlt,heq,hinside⟩ := helement.resolve_left (op_ne_error array kind index)
    rw [hi]
    refine ⟨Int.natCast_nonneg i,Int.ofNat_lt.mpr hlt,?_⟩
    cases array with
    | value data hsize =>
        dsimp only
        rw [heq,element] at hinside
        split at hinside
        · rename_i hdata
          rw [hsize] at hdata
          exact_mod_cast hdata
        · exact absurd rfl hinside
    | ref ptrKind p => exact trivial
  · intro hcovers
    obtain ⟨i,hi⟩ := Int.eq_ofNat_of_zero_le hcovers.1
    rw [hi] at hcovers
    have hlt : i < type.elementCount := Int.ofNat_lt.mp hcovers.2.1
    obtain ⟨heq,hinside⟩ := op_eq_element hi hcovers
    refine ⟨.inr ⟨i,hi,hlt,heq,hinside⟩,?_⟩
    refine iff_of_true (op_ne_error array kind index) ?_
    rw [variableOp,castInt_of_natCast hi]
    exact variableIndexOperator_of_lt hlt

/-- `"ab"[-1]` and `"ab"[5]` read outside of the three bytes of the literal. -/
theorem literal_index_outside :
    let type : ArrayType := ⟨1,3,by decide⟩
    let data : ConstData := ⟨0x1000,[97,98,0],by decide⟩
    op type (.value data rfl) .int32 (-1) = .outside ∧
      op type (.value data rfl) .int32 5 = .outside ∧
      variableOp type .int32 5 = false ∧ ¬InBounds type (.value data rfl) .int32 5 := by
  refine ⟨by decide,by decide,by decide,fun h => ?_⟩
  exact absurd (h.accepted.mp (by decide)) (by decide)

end Jancy.Ct.ArrayIndex
