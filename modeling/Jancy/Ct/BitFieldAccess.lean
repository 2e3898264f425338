import Jancy.Ct.ConstFolding

/-! Loads and stores of bit fields, as constants are folded and as code is emitted. -/
namespace Jancy.Ct

/-- Where a bit goes when the order of bytes is reversed. -/
def mirror (w i : ℕ) : ℕ := (w / 8 - 1 - i / 8) * 8 + i % 8

def swapByteOrder {w : ℕ} (v : BitVec w) : BitVec w :=
  (BitVec.iunfoldr (fun i () => ((),v.getLsbD (mirror w i))) ()).2

/-- The unit that the memory holds: a type of two bytes and more may be big-endian. -/
def unitOf {w : ℕ} (isBigEndian : Bool) (memory : BitVec w) : BitVec w :=
  if isBigEndian && decide (16 ≤ w) then swapByteOrder memory else memory

/-- Operands are both constant, or code is emitted. -/
inductive Path where
  | constant | emitted
  deriving DecidableEq, Repr

/-- `binaryOperator` for operators with an integer result. -/
def Path.op {w : ℕ} (path : Path) (kind : BinOpKind) (isUnsigned : Bool) (a b : BitVec w) :
    Option (BitVec w) :=
  match path with
  | .constant => toInt (constOpInt kind isUnsigned a b)
  | .emitted => toInt (llvmOpInt kind isUnsigned a b)
where
  toInt : Folded w → Option (BitVec w)
    | .int v => some v
    | _ => none

/-- The type of masks and offsets; the promoted type of the unit and a mask. -/
def maskKind (k : IntKind) : IntKind := if k.width ≤ 32 then .int32_u else .int64_u

example (k : IntKind) : getArithmeticOperatorResultType k (maskKind k) = maskKind k := by
  cases k <;> rfl

/-- `((int64_t)1 << bitCount) - 1`; the shift is undefined for the whole of 64 bits. -/
def countMask (bitCount : ℕ) : Option (BitVec 64) :=
  if bitCount < 64 then some ((1#64 <<< bitCount) - 1#64) else none

/-- The sign bit of a field goes to all bits above it. -/
def extractSign {w : ℕ} (path : Path) (signBit value : BitVec w) : Option (BitVec w) := do
  let signBitValue ← path.op .bwAnd true signBit value
  let signExtValue ← path.op .sub true signBitValue 1#w
  path.op .bwOr true value (~~~signExtValue)

def extractBitField (path : Path) (k : IntKind) (bitOffset bitCount : ℕ)
    (rawValue : BitVec k.width) : Option (BitVec k.width) := do
  let type := maskKind k
  let mask ← countMask bitCount
  let value ← path.op .shr true (castInt k type rawValue) (BitVec.ofNat _ bitOffset)
  let value ← path.op .bwAnd true value (mask.setWidth type.width)
  let value ←
    if k.isUnsigned then some value
    else extractSign path ((1#64 <<< (bitCount - 1)).setWidth type.width) value
  return castInt type k value

def mergeBitField (path : Path) (k : IntKind) (bitOffset bitCount : ℕ)
    (rawValue rawShadowValue : BitVec k.width) : Option (BitVec k.width) := do
  let type := maskKind k
  let mask ← countMask bitCount
  let value ← path.op .shl true (castInt k type rawValue) (BitVec.ofNat _ bitOffset)
  let _resultValue ← path.op .bwAnd true value ((mask <<< bitOffset).setWidth type.width)
  let shadowValue ← path.op .bwAnd true (castInt k type rawShadowValue)
    ((~~~(mask <<< bitOffset)).setWidth type.width)
  let value ← path.op .bwOr true value shadowValue
  return castInt type k value

def loadDataRef (path : Path) (k : IntKind) (isBigEndian : Bool) (bitOffset bitCount : ℕ)
    (memory : BitVec k.width) : Option (BitVec k.width) :=
  extractBitField path k bitOffset bitCount (unitOf isBigEndian memory)

def storeDataRef (path : Path) (k : IntKind) (isBigEndian : Bool) (bitOffset bitCount : ℕ)
    (memory srcValue : BitVec k.width) : Option (BitVec k.width) := do
  let srcValue ← mergeBitField path k bitOffset bitCount srcValue (unitOf isBigEndian memory)
  return unitOf isBigEndian srcValue

/-- The number that `DataPtrType::getTargetValueString` formats. Its mask is an `int`. -/
def targetValue (k : IntKind) (isBigEndian : Bool) (bitOffset bitCount : ℕ)
    (memory : BitVec k.width) : Option (BitVec k.width) :=
  if bitCount < 32 then
    let n := (unitOf isBigEndian memory).setWidth 64 >>> bitOffset
    let n := n &&& ((1#32 <<< bitCount) - 1#32).signExtend 64
    let n := if k.isUnsigned then n else n ||| ~~~((n &&& (1#64 <<< (bitCount - 1))) - 1#64)
    some (n.setWidth k.width)
  else none

/-- The value modulo `2 ^ bitCount`, extended by the signedness of the type. -/
def fieldValue (k : IntKind) (bitCount : ℕ) (value : BitVec k.width) : BitVec k.width :=
  if k.isUnsigned then (value.setWidth bitCount).setWidth k.width
  else (value.setWidth bitCount).signExtend k.width

/-- The store goes to the field alone, and what was stored is loaded and formatted. -/
def StoresField (path : Path) (k : IntKind) (isBigEndian : Bool) (bitOffset bitCount : ℕ)
    (memory value : BitVec k.width) : Prop :=
  ∃ memory', storeDataRef path k isBigEndian bitOffset bitCount memory value = some memory' ∧
    (∀ i < k.width, ¬ (bitOffset ≤ i ∧ i < bitOffset + bitCount) →
      (unitOf isBigEndian memory').getLsbD i = (unitOf isBigEndian memory).getLsbD i) ∧
    loadDataRef path k isBigEndian bitOffset bitCount memory' =
      some (fieldValue k bitCount value) ∧
    targetValue k isBigEndian bitOffset bitCount memory' = some (fieldValue k bitCount value)

/-- The bits of the value that do not fit meet only bits of the unit that are set already, and the
field is narrower than an `int`. -/
def storable (k : IntKind) (isBigEndian : Bool) (bitOffset bitCount : ℕ)
    (memory value : BitVec k.width) : Bool :=
  decide (bitCount < 32) && decide (∀ i < k.width, bitOffset + bitCount ≤ i →
    value.getLsbD (i - bitOffset) = true → (unitOf isBigEndian memory).getLsbD i = true)

section Units

variable {w : ℕ}

theorem mirror_lt (hw : 8 ∣ w) {i : ℕ} (hi : i < w) : mirror w i < w := by
  unfold mirror
  omega

theorem mirror_mirror (hw : 8 ∣ w) {i : ℕ} (hi : i < w) : mirror w (mirror w i) = i := by
  unfold mirror
  omega

theorem getLsbD_swapByteOrder (v : BitVec w) {i : ℕ} (hi : i < w) :
    (swapByteOrder v).getLsbD i = v.getLsbD (mirror w i) :=
  BitVec.iunfoldr_getLsbD (fun _ => ()) ⟨i,hi⟩ (fun _ => rfl)

theorem swapByteOrder_swapByteOrder (hw : 8 ∣ w) (v : BitVec w) :
    swapByteOrder (swapByteOrder v) = v := by
  apply BitVec.eq_of_getLsbD_eq
  intro i hi
  rw [getLsbD_swapByteOrder _ hi,getLsbD_swapByteOrder _ (mirror_lt hw hi),mirror_mirror hw hi]

theorem unitOf_unitOf (hw : 8 ∣ w) (isBigEndian : Bool) (v : BitVec w) :
    unitOf isBigEndian (unitOf isBigEndian v) = v := by
  unfold unitOf
  split
  · exact swapByteOrder_swapByteOrder hw v
  · rfl

end Units

theorem IntKind.dvd_width (k : IntKind) : 8 ∣ k.width := by
  cases k <;> decide

theorem width_le_maskKind (k : IntKind) : k.width ≤ (maskKind k).width := by
  cases k <;> decide

theorem maskKind_width_le (k : IntKind) : (maskKind k).width ≤ 64 := by
  cases k <;> decide

theorem getLsbD_castInt (src dst : IntKind) (v : BitVec src.width) {i : ℕ} (hsrc : i < src.width)
    (hdst : i < dst.width) : (castInt src dst v).getLsbD i = v.getLsbD i := by
  unfold castInt
  split
  · rw [BitVec.getLsbD_setWidth,decide_eq_true hdst,Bool.true_and]
  · rw [BitVec.getLsbD_signExtend,decide_eq_true hdst,Bool.true_and,if_pos hsrc]

section Masks

variable {w : ℕ}

theorem getLsbD_lowMask {n i : ℕ} (hn : n ≤ w) (hi : i < w) :
    ((1#w <<< n) - 1#w).getLsbD i = decide (i < n) := by
  by_cases hlt : n < w
  · have hone : 1 < 2 ^ w := Nat.one_lt_two_pow (by omega)
    have hpow : 2 ^ n < 2 ^ w := Nat.pow_lt_pow_right (by decide) hlt
    have hpos : 0 < 2 ^ n := Nat.two_pow_pos n
    have hnat : ((1#w <<< n) - 1#w).toNat = 2 ^ n - 1 := by
      rw [← BitVec.twoPow_eq,BitVec.toNat_sub,BitVec.toNat_twoPow_of_lt hlt,BitVec.toNat_ofNat,
        Nat.mod_eq_of_lt hone,
        show 2 ^ w - 1 + 2 ^ n = 2 ^ n - 1 + 2 ^ w by omega,Nat.add_mod_right]
      exact Nat.mod_eq_of_lt (by omega)
    rw [← BitVec.testBit_toNat,hnat,Nat.testBit_two_pow_sub_one]
  · have heq : n = w := by omega
    subst heq
    have hzero : 1#n <<< n = 0#n := BitVec.shiftLeft_eq_zero (Nat.le_refl n)
    rw [hzero,BitVec.zero_sub,BitVec.neg_one_eq_allOnes,BitVec.getLsbD_allOnes]

theorem setWidth_one_shiftLeft (n : ℕ) (hw : w ≤ 64) : (1#64 <<< n).setWidth w = 1#w <<< n := by
  apply BitVec.eq_of_getLsbD_eq
  intro i hi
  rw [← BitVec.twoPow_eq,← BitVec.twoPow_eq,BitVec.getLsbD_setWidth,BitVec.getLsbD_twoPow,
    BitVec.getLsbD_twoPow]
  simp only [decide_eq_true hi,Bool.true_and]
  by_cases heq : n = i
  · simp [heq,hi,show i < 64 by omega]
  · simp [heq]

theorem getLsbD_signFill (v : BitVec w) {n i : ℕ} (hn : n < w) (hi : i < w) :
    (~~~((v &&& (1#w <<< n)) - 1#w)).getLsbD i = (v.getLsbD n && decide (n ≤ i)) := by
  rw [← BitVec.twoPow_eq,BitVec.and_twoPow,BitVec.getLsbD_not,decide_eq_true hi,Bool.true_and]
  by_cases hbit : v.getLsbD n = true
  · rw [if_pos hbit,BitVec.twoPow_eq,getLsbD_lowMask (Nat.le_of_lt hn) hi,hbit,Bool.true_and]
    by_cases hlt : i < n
    · simp [hlt]
    · simp [hlt,Nat.le_of_not_lt hlt]
  · rw [if_neg hbit,BitVec.zero_sub,BitVec.neg_one_eq_allOnes,BitVec.getLsbD_allOnes,
      decide_eq_true hi,Bool.eq_false_iff.mpr hbit]
    rfl

theorem getLsbD_signExtended {v : BitVec w} {n i : ℕ} (hpos : 0 < n) (hn : n ≤ w)
    (hlow : ∀ j < w, ¬ j < n → v.getLsbD j = false) (hi : i < w) :
    (v ||| ~~~((v &&& (1#w <<< (n - 1))) - 1#w)).getLsbD i =
      if i < n then v.getLsbD i else v.getLsbD (n - 1) := by
  rw [BitVec.getLsbD_or,getLsbD_signFill v (by omega) hi]
  by_cases hlt : i < n
  · by_cases htop : i = n - 1
    · subst htop
      simp [hlt]
    · simp [hlt,show ¬ n - 1 ≤ i by omega]
  · simp [hlt,hlow i hi hlt,show n - 1 ≤ i by omega]

end Masks

section Steps

variable {w : ℕ} (path : Path)

@[simp] theorem Path.op_bwAnd (a b : BitVec w) : path.op .bwAnd true a b = some (a &&& b) := by
  cases path <;> rfl

@[simp] theorem Path.op_bwOr (a b : BitVec w) : path.op .bwOr true a b = some (a ||| b) := by
  cases path <;> rfl

@[simp] theorem Path.op_sub (a b : BitVec w) : path.op .sub true a b = some (a - b) := by
  cases path <;> rfl

theorem toNat_offset {n : ℕ} (hn : n < w) : (BitVec.ofNat w n).toNat = n :=
  Nat.mod_eq_of_lt (Nat.lt_trans hn Nat.lt_two_pow_self)

theorem Path.op_shl (a : BitVec w) {n : ℕ} (hn : n < w) :
    path.op .shl true a (BitVec.ofNat w n) = some (a <<< n) := by
  cases path <;> simp [Path.op,Path.op.toInt,constOpInt,llvmOpInt,toNat_offset hn,hn]

theorem Path.op_shr (a : BitVec w) {n : ℕ} (hn : n < w) :
    ∃ r, path.op .shr true a (BitVec.ofNat w n) = some r ∧
      ∀ i, n + i < w → r.getLsbD i = a.getLsbD (n + i) := by
  cases path with
  | constant =>
    have hop : Path.constant.op .shr true a (BitVec.ofNat w n) = some (a.sshiftRight n) := by
      simp [Path.op,Path.op.toInt,constOpInt,toNat_offset hn,hn]
    have hbits : ∀ i, n + i < w → (a.sshiftRight n).getLsbD i = a.getLsbD (n + i) := by
      intro i hi
      have hle : ¬ w ≤ i := by omega
      simp [BitVec.getLsbD_sshiftRight,hi,hle]
    exact ⟨_,hop,hbits⟩
  | emitted =>
    have hop : Path.emitted.op .shr true a (BitVec.ofNat w n) = some (a >>> n) := by
      simp [Path.op,Path.op.toInt,llvmOpInt,toNat_offset hn,hn]
    exact ⟨_,hop,fun i _ => BitVec.getLsbD_ushiftRight a n i⟩

end Steps

section Access

variable {k : IntKind} {bitOffset bitCount : ℕ}

theorem extractBitField_spec (path : Path) (hcount : 0 < bitCount)
    (hfit : bitOffset + bitCount ≤ k.width) (hmask : bitCount < 64) (v : BitVec k.width) :
    ∃ r, extractBitField path k bitOffset bitCount v = some r ∧ ∀ i < k.width,
      r.getLsbD i = if i < bitCount then v.getLsbD (bitOffset + i)
        else !k.isUnsigned && v.getLsbD (bitOffset + bitCount - 1) := by
  have hle := width_le_maskKind k
  have hle' := maskKind_width_le k
  obtain ⟨shifted,hshift,hshifted⟩ :=
    path.op_shr (castInt k (maskKind k) v) (show bitOffset < (maskKind k).width by omega)
  let mask : BitVec 64 := (1#64 <<< bitCount) - 1#64
  have hcountMask : countMask bitCount = some mask := if_pos hmask
  have hmasked : ∀ i < (maskKind k).width, (shifted &&& mask.setWidth (maskKind k).width).getLsbD i
      = if i < bitCount then v.getLsbD (bitOffset + i) else false := by
    intro i hi
    rw [BitVec.getLsbD_and,BitVec.getLsbD_setWidth,
      getLsbD_lowMask (Nat.le_of_lt hmask) (by omega),decide_eq_true hi,Bool.true_and]
    by_cases hlt : i < bitCount
    · rw [hshifted i (by omega),getLsbD_castInt _ _ _ (by omega) (by omega)]
      simp [hlt]
    · simp [hlt]
  cases hsign : k.isUnsigned with
  | true =>
    refine ⟨castInt (maskKind k) k (shifted &&& mask.setWidth _),?_,?_⟩
    · simp [extractBitField,hcountMask,hshift,hsign]
    · intro i hi
      rw [getLsbD_castInt _ _ _ (by omega) hi,hmasked i (by omega)]
      simp
  | false =>
    refine ⟨castInt (maskKind k) k ((shifted &&& mask.setWidth _) |||
      ~~~(((1#64 <<< (bitCount - 1)).setWidth _ &&& (shifted &&& mask.setWidth _)) - 1#_)),?_,?_⟩
    · simp [extractBitField,hcountMask,hshift,hsign,extractSign]
    · intro i hi
      have hlow : ∀ j < (maskKind k).width, ¬ j < bitCount →
          (shifted &&& mask.setWidth (maskKind k).width).getLsbD j = false := by
        intro j hj hlt
        rw [hmasked j hj,if_neg hlt]
      rw [getLsbD_castInt _ _ _ (by omega) hi,setWidth_one_shiftLeft _ (by omega),
        BitVec.and_comm (1#_ <<< _),getLsbD_signExtended hcount (by omega) hlow (by omega),
        hmasked i (by omega),hmasked (bitCount - 1) (by omega),
        if_pos (show bitCount - 1 < bitCount by omega),
        show bitOffset + (bitCount - 1) = bitOffset + bitCount - 1 by omega]
      by_cases hlt : i < bitCount
      · simp [hlt]
      · simp [hlt]

theorem mergeBitField_spec (path : Path) (hcount : 0 < bitCount)
    (hfit : bitOffset + bitCount ≤ k.width) (hmask : bitCount < 64) (v shadow : BitVec k.width) :
    ∃ r, mergeBitField path k bitOffset bitCount v shadow = some r ∧ ∀ i < k.width,
      r.getLsbD i = (decide (bitOffset ≤ i) && v.getLsbD (i - bitOffset) ||
        !(decide (bitOffset ≤ i ∧ i < bitOffset + bitCount)) && shadow.getLsbD i) := by
  have hle := width_le_maskKind k
  have hle' := maskKind_width_le k
  let mask : BitVec 64 := (1#64 <<< bitCount) - 1#64
  have hcountMask : countMask bitCount = some mask := if_pos hmask
  have hshl := path.op_shl (castInt k (maskKind k) v)
    (show bitOffset < (maskKind k).width by omega)
  refine ⟨castInt (maskKind k) k ((castInt k (maskKind k) v <<< bitOffset) |||
    (castInt k (maskKind k) shadow &&& (~~~(mask <<< bitOffset)).setWidth _)),?_,?_⟩
  · simp [mergeBitField,hcountMask,hshl]
  · intro i hi
    rw [getLsbD_castInt _ _ _ (by omega) hi,BitVec.getLsbD_or,BitVec.getLsbD_and,
      getLsbD_castInt _ _ _ hi (by omega),BitVec.getLsbD_setWidth,BitVec.getLsbD_not,
      BitVec.getLsbD_shiftLeft,BitVec.getLsbD_shiftLeft,
      getLsbD_lowMask (Nat.le_of_lt hmask) (by omega)]
    have hlt : i < (maskKind k).width := by omega
    have hlt' : i < 64 := by omega
    by_cases hoff : i < bitOffset
    · simp [hlt,hlt',hoff,show ¬ bitOffset ≤ i by omega]
    · rw [getLsbD_castInt _ _ _ (by omega) (by omega)]
      have hiff : i - bitOffset < bitCount ↔ i < bitOffset + bitCount := by omega
      simp [hlt,hlt',hoff,Nat.le_of_not_lt hoff,hiff,Bool.and_comm]

/-- The number is formatted as it is loaded, as long as an `int` holds the mask. -/
theorem targetValue_spec (isBigEndian : Bool) (hcount : 0 < bitCount)
    (hfit : bitOffset + bitCount ≤ k.width) (hmask : bitCount < 32) (memory : BitVec k.width) :
    ∃ r, targetValue k isBigEndian bitOffset bitCount memory = some r ∧ ∀ i < k.width,
      r.getLsbD i = if i < bitCount then (unitOf isBigEndian memory).getLsbD (bitOffset + i)
        else !k.isUnsigned && (unitOf isBigEndian memory).getLsbD (bitOffset + bitCount - 1) := by
  have hle := Nat.le_trans (width_le_maskKind k) (maskKind_width_le k)
  let n : BitVec 64 := (unitOf isBigEndian memory).setWidth 64 >>> bitOffset &&&
    ((1#32 <<< bitCount) - 1#32).signExtend 64
  have hmasked : ∀ i < 64, n.getLsbD i =
      if i < bitCount then (unitOf isBigEndian memory).getLsbD (bitOffset + i) else false := by
    intro i hi
    have hbit : (((1#32 <<< bitCount) - 1#32).signExtend 64).getLsbD i = decide (i < bitCount) := by
      rw [BitVec.getLsbD_signExtend,decide_eq_true hi,Bool.true_and]
      by_cases hlow : i < 32
      · rw [if_pos hlow,getLsbD_lowMask (Nat.le_of_lt hmask) hlow]
      · rw [if_neg hlow,BitVec.msb_eq_getLsbD_last,
          getLsbD_lowMask (Nat.le_of_lt hmask) (by decide)]
        simp only [decide_eq_decide]
        omega
    rw [BitVec.getLsbD_and,hbit,BitVec.getLsbD_ushiftRight,BitVec.getLsbD_setWidth]
    by_cases hlt : i < bitCount
    · simp [hlt,show bitOffset + i < 64 by omega]
    · simp [hlt]
  cases hsign : k.isUnsigned with
  | true =>
    refine ⟨n.setWidth k.width,?_,?_⟩
    · simp [targetValue,hmask,hsign,n]
    · intro i hi
      rw [BitVec.getLsbD_setWidth,decide_eq_true hi,hmasked i (by omega)]
      simp
  | false =>
    refine ⟨(n ||| ~~~((n &&& (1#64 <<< (bitCount - 1))) - 1#64)).setWidth k.width,?_,?_⟩
    · simp [targetValue,hmask,hsign,n]
    · intro i hi
      have hlow : ∀ j < 64, ¬ j < bitCount → n.getLsbD j = false := by
        intro j hj hlt
        rw [hmasked j hj,if_neg hlt]
      rw [BitVec.getLsbD_setWidth,decide_eq_true hi,
        getLsbD_signExtended hcount (by omega) hlow (by omega),hmasked i (by omega),
        hmasked (bitCount - 1) (by omega),if_pos (show bitCount - 1 < bitCount by omega),
        show bitOffset + (bitCount - 1) = bitOffset + bitCount - 1 by omega]
      by_cases hlt : i < bitCount
      · simp [hlt]
      · simp [hlt]

theorem getLsbD_fieldValue (hcount : 0 < bitCount) (value : BitVec k.width) {i : ℕ}
    (hi : i < k.width) :
    (fieldValue k bitCount value).getLsbD i =
      if i < bitCount then value.getLsbD i
      else !k.isUnsigned && value.getLsbD (bitCount - 1) := by
  unfold fieldValue
  cases k.isUnsigned with
  | true =>
    rw [if_pos rfl,BitVec.getLsbD_setWidth,decide_eq_true hi,BitVec.getLsbD_setWidth]
    by_cases hlt : i < bitCount
    · simp [hlt]
    · simp [hlt]
  | false =>
    rw [if_neg (by decide),BitVec.getLsbD_signExtend,decide_eq_true hi,
      BitVec.msb_eq_getLsbD_last,BitVec.getLsbD_setWidth,BitVec.getLsbD_setWidth]
    by_cases hlt : i < bitCount
    · simp [hlt]
    · simp [hlt,show bitCount - 1 < bitCount by omega]

/-- The field is stored alone exactly when no bit of the value leaks and the field is narrower than
an `int`. -/
theorem storesField_iff (path : Path) (k : IntKind) (isBigEndian : Bool) (bitOffset bitCount : ℕ)
    (memory value : BitVec k.width) (hcount : 0 < bitCount)
    (hfit : bitOffset + bitCount ≤ k.width) :
    StoresField path k isBigEndian bitOffset bitCount memory value ↔
      storable k isBigEndian bitOffset bitCount memory value = true := by
  have hunit := unitOf_unitOf k.dvd_width isBigEndian
  by_cases hnarrow : bitCount < 32
  · obtain ⟨r,hmerge,hr⟩ := mergeBitField_spec path hcount hfit (by omega) value
      (unitOf isBigEndian memory)
    have hstore : storeDataRef path k isBigEndian bitOffset bitCount memory value =
        some (unitOf isBigEndian r) := by
      simp [storeDataRef,hmerge]
    simp only [storable,Bool.and_eq_true,decide_eq_true_eq,hnarrow,true_and]
    constructor
    · rintro ⟨memory',hmemory,hframe,-⟩ i hi habove hbit
      rw [hstore] at hmemory
      have hkeep := hframe i hi (by omega)
      rw [← Option.some.inj hmemory,hunit,hr i hi] at hkeep
      rw [← hkeep]
      simp [show bitOffset ≤ i by omega,hbit]
    · intro hleak
      -- what is loaded and formatted are the bits of the merged unit
      have hfield : ∀ i < k.width, (if i < bitCount then r.getLsbD (bitOffset + i)
            else !k.isUnsigned && r.getLsbD (bitOffset + bitCount - 1)) =
          (fieldValue k bitCount value).getLsbD i := by
        intro i hi
        have hin : ∀ j < bitCount, r.getLsbD (bitOffset + j) = value.getLsbD j := by
          intro j hj
          rw [hr _ (by omega)]
          simp [show bitOffset + j < bitOffset + bitCount by omega]
        rw [getLsbD_fieldValue hcount value hi]
        by_cases hlt : i < bitCount
        · rw [if_pos hlt,if_pos hlt,hin i hlt]
        · rw [if_neg hlt,if_neg hlt,
            show bitOffset + bitCount - 1 = bitOffset + (bitCount - 1) by omega,
            hin _ (by omega)]
      refine ⟨unitOf isBigEndian r,hstore,?_,?_,?_⟩
      · intro i hi hout
        rw [hunit,hr i hi,decide_eq_false hout,Bool.not_false,Bool.true_and]
        by_cases hoff : bitOffset ≤ i
        · have hbit := hleak i hi (by omega)
          cases hv : value.getLsbD (i - bitOffset) with
          | true => simp [hbit hv]
          | false => simp
        · simp [hoff]
      · obtain ⟨loaded,hload,hloaded⟩ := extractBitField_spec path hcount hfit (by omega) r
        have heq : loaded = fieldValue k bitCount value := by
          apply BitVec.eq_of_getLsbD_eq
          intro i hi
          rw [hloaded i hi,hfield i hi]
        rw [loadDataRef,hunit,hload,heq]
      · obtain ⟨shown,htarget,hshown⟩ := targetValue_spec isBigEndian hcount hfit hnarrow
          (unitOf isBigEndian r)
        have heq : shown = fieldValue k bitCount value := by
          apply BitVec.eq_of_getLsbD_eq
          intro i hi
          rw [hshown i hi,hunit,hfield i hi]
        rw [htarget,heq]
  · constructor
    · rintro ⟨memory',-,-,-,htarget⟩
      rw [targetValue,if_neg hnarrow] at htarget
      cases htarget
    · intro hstorable
      simp [storable,hnarrow] at hstorable

theorem storesField_iff_low_nibble :
    (0 < 4 ∧ 0 + 4 ≤ IntKind.int8_u.width) ∧
      (StoresField .emitted .int8_u false 0 4 0xa0#8 0x5#8 ↔
        storable .int8_u false 0 4 0xa0#8 0x5#8 = true) :=
  ⟨by decide,storesField_iff .emitted .int8_u false 0 4 0xa0#8 0x5#8 (by decide) (by decide)⟩

/-- The high half of the value goes to the neighbour. -/
theorem low_nibble_leaks : ¬ StoresField .emitted .int8_u false 0 4 0xa0#8 0x5f#8 := by
  rintro ⟨memory',hstore,hframe,-⟩
  have hmemory : memory' = 0xff#8 := by
    apply Option.some.inj
    rw [← hstore]
    decide
  have hbit := hframe 4 (by decide) (by decide)
  rw [hmemory] at hbit
  revert hbit
  decide

end Access

end Jancy.Ct
