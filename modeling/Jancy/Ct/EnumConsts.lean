import Jancy.Ct.PtrArithmeticPaths
import Mathlib.Data.List.Forall2
import Mathlib.Data.List.Induction

/-! The values of enum constants: explicit ones and successors, the representation at run time and
the map that constants are looked up in. -/
namespace Jancy.Ct.EnumConsts

open PtrArithmetic (IndexOperand IndexKind)

/-- An expression of any integer type. -/
abbrev IntExpr := IndexOperand

inductive RootType where
  | bool
  | int (kind : IntKind)
  deriving DecidableEq

namespace RootType

/-- In bytes. -/
def size : RootType → ℕ
  | bool => 1
  | int kind => kind.width / 8

def isUnsigned : RootType → Bool
  | bool => true
  | int kind => kind.isUnsigned

/-- The value can be represented. -/
def InRange (root : RootType) (value : ℤ) : Prop :=
  match root with
  | bool => 0 ≤ value ∧ value ≤ 1
  | int kind =>
      if kind.isUnsigned then 0 ≤ value ∧ value < 2 ^ kind.width
      else -2 ^ kind.width ≤ 2 * value ∧ 2 * value < 2 ^ kind.width

end RootType

structure EnumConst where
  name : String
  /-- what `ensureAttributeValuesReady` returns -/
  attributesReady : Bool
  initializer : Option IntExpr

structure EnumType where
  root : RootType
  isBitFlag : Bool
  /-- the value of the last constant of the base enum -/
  baseConst : Option (BitVec 64)
  constList : List EnumConst

/-- The bytes of the constant, and zeroes behind them. -/
def parseConstIntegerExpression (expr : IntExpr) : Option (BitVec 64) :=
  if expr.isConst then some (expr.bits.setWidth 64) else none

/-- Where the zero has its highest bit is up to the library. -/
def getHiBitIdx64 (hiBitIdxOfZero : ℕ) (value : BitVec 64) : ℕ :=
  if value = 0 then hiBitIdxOfZero else value.toNat.log2

/-- `2 << idx` for an `int`: it is the low half of a 64-bit register that is shifted, modulo 32. -/
def shiftedTwo (idx : ℕ) : BitVec 64 := ((2 : BitVec 32) <<< (idx % 32)).signExtend 64

/-- The loops of `calcEnumConstValues` and `calcBitflagEnumConstValues`. -/
def calcValues (next : BitVec 64 → BitVec 64) : List EnumConst → BitVec 64 → List (BitVec 64) × Bool
  | [],_ => ([],true)
  | enumConst :: rest,value =>
      let parsed := enumConst.initializer.map parseConstIntegerExpression
      let value := (parsed.join).getD value
      let (values,result) := calcValues next rest (next value)
      (value :: values,enumConst.attributesReady && parsed != some none && result)

def calcEnumConstValues (e : EnumType) : List (BitVec 64) × Bool :=
  let value := match e.baseConst with
    | some baseValue => baseValue + 1
    | none => 0
  calcValues (· + 1) e.constList value

def calcBitflagEnumConstValues (hiBitIdxOfZero : ℕ) (e : EnumType) : List (BitVec 64) × Bool :=
  let value := match e.baseConst with
    | some baseValue => shiftedTwo (getHiBitIdx64 hiBitIdxOfZero baseValue)
    | none => 1
  calcValues (fun value => if value = 0 then 1 else shiftedTwo (getHiBitIdx64 hiBitIdxOfZero value))
    e.constList value

def calcLayout (hiBitIdxOfZero : ℕ) (e : EnumType) : List (BitVec 64) × Bool :=
  if e.isBitFlag then calcBitflagEnumConstValues hiBitIdxOfZero e else calcEnumConstValues e

/-- The map from values to constants, by their index: a later constant replaces an earlier one. -/
def findConst (values : List (BitVec 64)) (value : BitVec 64) : Option ℕ :=
  values.zipIdx.foldl (fun found entry => if entry.1 = value then some entry.2 else found) none

/-- The bytes of a constant of the enum. -/
def stored (root : RootType) (value : BitVec 64) : BitVec (8 * root.size) := value.setWidth _

/-- `getValueString` reads them back and looks them up. -/
def findStored (root : RootType) (values : List (BitVec 64)) (p : BitVec (8 * root.size)) :
    Option ℕ := findConst values (p.setWidth 64)

/-- The successor, or the power of two above the highest set bit; above the bits of a negative
value there is none left. -/
def nextValue (isBitFlag : Bool) (value : ℤ) : ℤ :=
  if !isBitFlag then value + 1
  else if value = 0 then 1
  else if value < 0 then 2 ^ 64
  else 2 ^ (value.toNat.log2 + 1)

def expectedValues (isBitFlag : Bool) : List EnumConst → ℤ → List ℤ
  | [],_ => []
  | enumConst :: rest,value =>
      let value := match enumConst.initializer with
        | some expr => expr.toInt
        | none => value
      value :: expectedValues isBitFlag rest (nextValue isBitFlag value)

/-- What a representation denotes. -/
def denoted (root : RootType) (p : BitVec (8 * root.size)) : ℤ :=
  if root.isUnsigned then p.toNat else p.toInt

def EnumType.expected (e : EnumType) : List ℤ :=
  expectedValues e.isBitFlag e.constList (
    match e.baseConst with
    | some baseValue => nextValue e.isBitFlag (denoted e.root (stored e.root baseValue))
    | none => if e.isBitFlag then 1 else 0)

/-- The enum is rejected, or every constant has its value, in its type, in its representation and
in the map. -/
def Meets (hiBitIdxOfZero : ℕ) (e : EnumType) : Prop :=
  (calcLayout hiBitIdxOfZero e).2 = false ∨
    ∀ (i : ℕ) (expected : ℤ) (value : BitVec 64), e.expected[i]? = some expected →
      (calcLayout hiBitIdxOfZero e).1[i]? = some value →
      e.root.InRange expected ∧ stored e.root value = BitVec.ofInt _ expected ∧
        findStored e.root (calcLayout hiBitIdxOfZero e).1 (stored e.root value) = some i

def EnumConst.IsValid (enumConst : EnumConst) : Prop :=
  enumConst.attributesReady = true ∧
    ∀ expr, enumConst.initializer = some expr → expr.isConst = true

def ExplicitFits (root : RootType) (expr : IntExpr) : Prop :=
  root.InRange expr.toInt ∧ (0 ≤ expr.toInt ∨ expr.kind.width = 8 * root.size)

/-- The value after a constant of this enum. -/
def StepFits (root : RootType) (isBitFlag : Bool) (value : ℤ) : Prop :=
  root.InRange (nextValue isBitFlag value) ∧
    if isBitFlag then value < 2 ^ 30 else value ≠ -1 ∨ root.size = 8

/-- The first value: after a constant of the base enum, if there is one. -/
def StartFits (e : EnumType) : Prop :=
  match e.baseConst with
  | none => True
  | some baseValue =>
      let base := denoted e.root (stored e.root baseValue)
      e.root.InRange (nextValue e.isBitFlag base) ∧
        if e.isBitFlag then
          0 < base ∧ base < 2 ^ 30 ∧ baseValue.toNat.log2 % 32 = base.toNat.log2
        else (baseValue + 1).toNat < 2 ^ (8 * e.root.size)

def ConstsFit (root : RootType) (isBitFlag : Bool) : List EnumConst → ℤ → Prop → Prop
  | [],_,_ => True
  | enumConst :: rest,value,fits =>
      match enumConst.initializer with
      | some expr => ExplicitFits root expr ∧
          ConstsFit root isBitFlag rest (nextValue isBitFlag expr.toInt)
            (StepFits root isBitFlag expr.toInt)
      | none => fits ∧
          ConstsFit root isBitFlag rest (nextValue isBitFlag value)
            (StepFits root isBitFlag value)

/-- Some constant is rejected, or all of them fit and no two of them have the same value. -/
def EnumType.Fits (e : EnumType) : Prop :=
  (∃ enumConst ∈ e.constList, ¬enumConst.IsValid) ∨
    ConstsFit e.root e.isBitFlag e.constList (
      match e.baseConst with
      | some baseValue => nextValue e.isBitFlag (denoted e.root (stored e.root baseValue))
      | none => if e.isBitFlag then 1 else 0) (StartFits e) ∧ e.expected.Nodup

end Jancy.Ct.EnumConsts

/-! Which enums get the values they should have. -/
namespace Jancy.Ct.EnumConsts

open PtrArithmetic (IndexOperand IndexKind toInt_range)

variable {root : RootType} {values : List (BitVec 64)} {value w : BitVec 64}

theorem findConst_snoc (values : List (BitVec 64)) (w value : BitVec 64) :
    findConst (values ++ [w]) value =
      if w = value then some values.length else findConst values value := by
  unfold findConst
  rw [List.zipIdx_append,List.foldl_append]
  simp

theorem findConst_eq_some {i : ℕ} :
    findConst values value = some i ↔
      values[i]? = some value ∧ ∀ j, i < j → values[j]? ≠ some value := by
  induction values using List.reverseRecOn with
  | nil => simp [findConst]
  | append_singleton values w ih =>
    rw [findConst_snoc]
    have hlast : (values ++ [w])[values.length]? = some w := List.getElem?_concat_length
    split
    next hw =>
      subst hw
      constructor
      · rintro ⟨⟩
        refine ⟨hlast,fun j hj => ?_⟩
        rw [List.getElem?_eq_none (by simpa using Nat.succ_le_of_lt hj)]
        nofun
      · rintro ⟨hi,hlater⟩
        have hle : values.length ≤ i := Nat.le_of_not_lt fun hlt => hlater _ hlt hlast
        have hlt : i < (values ++ [w]).length := (List.getElem?_eq_some_iff.1 hi).1
        rw [List.length_append,List.length_singleton] at hlt
        exact congrArg some (by omega)
    next hw =>
      have hsame : ∀ j : ℕ, (values ++ [w])[j]? = some value ↔ values[j]? = some value := by
        intro j
        rcases Nat.lt_trichotomy j values.length with hlt | rfl | hlt
        · rw [List.getElem?_append_left hlt]
        · rw [hlast,List.getElem?_eq_none le_rfl]
          simpa using hw
        · rw [List.getElem?_eq_none (by simpa using Nat.succ_le_of_lt hlt),List.getElem?_eq_none hlt.le]
      rw [ih]
      simp only [ne_eq,hsame]

theorem size_cases (root : RootType) :
    root.size = 1 ∨ root.size = 2 ∨ root.size = 4 ∨ root.size = 8 := by
  cases root with
  | bool => exact Or.inl rfl
  | int kind => cases kind <;> simp [RootType.size,IntKind.width]

/-- The value is in its type, and the constant is what its representation reads back as. -/
def Good (root : RootType) (v : ℤ) (w : BitVec 64) : Prop :=
  root.InRange v ∧ (w.toNat : ℤ) = v % 2 ^ (8 * root.size)

theorem stored_toNat (root : RootType) (w : BitVec 64) :
    ((stored root w).setWidth 64).toNat = w.toNat % 2 ^ (8 * root.size) := by
  unfold stored
  rw [BitVec.toNat_setWidth,BitVec.toNat_setWidth]
  rcases size_cases root with h | h | h | h <;> rw [h] <;> omega

theorem good_iff (root : RootType) (v : ℤ) (w : BitVec 64) :
    Good root v w ↔ root.InRange v ∧ stored root w = BitVec.ofInt _ v ∧
      (stored root w).setWidth 64 = w := by
  have hw := w.isLt
  have hback : (stored root w).setWidth 64 = w ↔ w.toNat < 2 ^ (8 * root.size) := by
    rw [← BitVec.toNat_inj,stored_toNat]
    exact ⟨fun h => h ▸ Nat.mod_lt _ (Nat.two_pow_pos _),Nat.mod_eq_of_lt⟩
  have hstored : stored root w = BitVec.ofInt _ v ↔
      (w.toNat : ℤ) % 2 ^ (8 * root.size) = v % 2 ^ (8 * root.size) := by
    have hofInt : stored root w = BitVec.ofInt (8 * root.size) w.toNat := by
      rw [BitVec.ofInt_natCast,BitVec.ofNat_toNat]
      rfl
    rw [hofInt,PtrArithmetic.ofInt_eq_iff,Int.emod_eq_emod_iff_emod_sub_eq_zero,
      Int.dvd_iff_emod_eq_zero]
  rw [Good,hback,hstored]
  refine and_congr_right fun _ => ?_
  rcases size_cases root with h | h | h | h <;> rw [h] <;> omega

variable {v : ℤ}

theorem InRange_bounds (h : root.InRange v) :
    -2 ^ (8 * root.size) ≤ 2 * v ∧ v < 2 ^ (8 * root.size) := by
  cases root with
  | bool =>
    have h : 0 ≤ v ∧ v ≤ 1 := h
    simp only [RootType.size]
    omega
  | int kind =>
    cases kind <;> simp only [RootType.InRange,IntKind.isUnsigned,IntKind.width,
      Bool.false_eq_true,if_true,if_false] at h <;>
      simp only [RootType.size,IntKind.width] <;> omega

theorem width_cases (kind : IndexKind) :
    kind.width = 1 ∨ kind.width = 8 ∨ kind.width = 16 ∨ kind.width = 32 ∨ kind.width = 64 := by
  cases kind with
  | bool1 | bool8 => simp [IndexKind.width]
  | int kind => cases kind <;> simp [IndexKind.width,IntKind.width]

theorem bits_toNat (expr : IntExpr) :
    0 ≤ expr.toInt ∧ (expr.bits.toNat : ℤ) = expr.toInt ∨
      expr.toInt < 0 ∧ (expr.bits.toNat : ℤ) = expr.toInt + 2 ^ expr.kind.width := by
  unfold IndexOperand.toInt
  split
  next => exact Or.inl ⟨Int.natCast_nonneg _,rfl⟩
  next =>
    have hlt : (expr.bits.toNat : ℤ) < 2 ^ expr.kind.width := by exact_mod_cast expr.bits.isLt
    rw [BitVec.toInt_eq_toNat_cond]
    split
    next => exact Or.inl ⟨Int.natCast_nonneg _,rfl⟩
    next =>
      push_cast
      refine Or.inr ⟨by omega,by omega⟩

theorem explicit_iff (root : RootType) (expr : IntExpr) :
    Good root expr.toInt (expr.bits.setWidth 64) ↔ ExplicitFits root expr := by
  refine and_congr_right fun hrange => ?_
  have hbounds := InRange_bounds hrange
  have hbits : (expr.bits.setWidth 64).toNat = expr.bits.toNat := by
    have hle : expr.kind.width ≤ 64 := by
      rcases width_cases expr.kind with h | h | h | h | h <;> omega
    rw [BitVec.toNat_setWidth,Nat.mod_eq_of_lt]
    exact expr.bits.isLt.trans_le (Nat.pow_le_pow_right (by decide) hle)
  rw [hbits]
  rcases bits_toNat expr with ⟨hsign,heq⟩ | ⟨hsign,heq⟩
  · rw [heq]
    rcases size_cases root with h | h | h | h <;> rw [h] at hbounds ⊢ <;> omega
  · rw [heq]
    rcases size_cases root with h | h | h | h <;> rw [h] at hbounds ⊢ <;>
      rcases width_cases expr.kind with h' | h' | h' | h' | h' <;> rw [h'] <;> omega

theorem shiftedTwo_toNat {idx : ℕ} (h : idx < 32) :
    (shiftedTwo idx).toNat =
      if idx < 30 then 2 ^ (idx + 1) else if idx = 30 then 2 ^ 64 - 2 ^ 31 else 0 := by
  revert idx
  decide

theorem shiftedTwo_mod (idx : ℕ) : shiftedTwo idx = shiftedTwo (idx % 32) := by
  unfold shiftedTwo
  rw [Nat.mod_mod]

theorem shiftedTwo_iff {idx bit : ℕ} (hbit : bit < 63) :
    (shiftedTwo idx).toNat = 2 ^ (bit + 1) ↔ bit < 30 ∧ idx % 32 = bit := by
  rw [shiftedTwo_mod,shiftedTwo_toNat (Nat.mod_lt _ (by decide))]
  split
  next h =>
    rw [Nat.pow_right_inj (le_refl 2)]
    omega
  next h =>
    refine iff_of_false (fun heq => ?_) (fun h' => h (h'.2 ▸ h'.1))
    have hpos := Nat.two_pow_pos (bit + 1)
    have hle : 2 ^ (bit + 1) ≤ 2 ^ 63 := Nat.pow_le_pow_right (by decide) hbit
    split at heq <;> omega

theorem shiftedTwo_ne_one (idx : ℕ) : (shiftedTwo idx).toNat ≠ 1 := by
  rw [shiftedTwo_mod,shiftedTwo_toNat (Nat.mod_lt _ (by decide))]
  split
  next => exact fun h => absurd (Nat.pow_eq_one.1 h) (by omega)
  next => split <;> decide

theorem nextFlag_iff {idx : ℕ} (hpos : 0 < v) (hv : v < 2 ^ 64) :
    Good root (nextValue true v) (shiftedTwo idx) ↔
      root.InRange (nextValue true v) ∧ v < 2 ^ 30 ∧ idx % 32 = v.toNat.log2 := by
  have hnext : nextValue true v = ((2 ^ (v.toNat.log2 + 1) : ℕ) : ℤ) := by
    unfold nextValue
    rw [if_neg (by simp),if_neg hpos.ne',if_neg (Int.not_lt.2 hpos.le)]
    push_cast
    rfl
  refine and_congr_right fun hrange => ?_
  have hbounds := (InRange_bounds hrange).2
  have hsize : (2 : ℤ) ^ (8 * root.size) ≤ 2 ^ 64 := by
    rcases size_cases root with h | h | h | h <;> rw [h] <;> decide
  have hpow : 2 ^ (v.toNat.log2 + 1) < 2 ^ 64 := by
    have := hbounds.trans_le hsize
    rw [hnext] at this
    exact_mod_cast this
  have hbit : v.toNat.log2 < 63 := by
    have := (Nat.pow_lt_pow_iff_right (by decide)).1 hpow
    omega
  have hsmall : v < 2 ^ 30 ↔ v.toNat.log2 < 30 := by
    rw [Nat.log2_lt (by omega)]
    omega
  rw [hsmall,← shiftedTwo_iff hbit]
  have hmod : nextValue true v % 2 ^ (8 * root.size) = nextValue true v :=
    Int.emod_eq_of_lt (by rw [hnext]; exact Int.natCast_nonneg _) hbounds
  rw [hmod,hnext]
  exact Int.ofNat_inj

theorem not_inRange_of_neg (h : v < 0) : ¬root.InRange (nextValue true v) := by
  intro hrange
  have hbounds := (InRange_bounds hrange).2
  have hnext : nextValue true v = 2 ^ 64 := by
    unfold nextValue
    rw [if_neg (by simp),if_neg h.ne,if_pos h]
  rw [hnext] at hbounds
  rcases size_cases root with h | h | h | h <;> rw [h] at hbounds <;> omega

/-- What follows a good constant. -/
theorem step_iff (isBitFlag : Bool) (hiBitIdxOfZero : ℕ) (h : Good root v w) :
    Good root (nextValue isBitFlag v)
        (if isBitFlag then if w = 0 then 1 else shiftedTwo (getHiBitIdx64 hiBitIdxOfZero w)
          else w + 1) ↔
      StepFits root isBitFlag v := by
  obtain ⟨hrange,hw⟩ := h
  have hbounds := InRange_bounds hrange
  cases isBitFlag with
  | false =>
    refine and_congr_right fun hrange' => ?_
    have hbounds' := InRange_bounds hrange'
    have hnext : nextValue false v = v + 1 := rfl
    rw [hnext] at hbounds' ⊢
    simp only [Bool.false_eq_true,if_false]
    rw [BitVec.toNat_add]
    have hone : (1 : BitVec 64).toNat = 1 := rfl
    rw [hone]
    rcases size_cases root with h | h | h | h <;> rw [h] at hw hbounds hbounds' ⊢ <;> omega
  | true =>
    simp only [if_true]
    rcases Int.lt_trichotomy v 0 with hneg | rfl | hpos
    · exact iff_of_false (fun h => not_inRange_of_neg hneg h.1)
        (fun h => not_inRange_of_neg hneg h.1)
    · have hzero : w = 0 := by
        refine BitVec.eq_of_toNat_eq ?_
        rw [Int.zero_emod] at hw
        exact_mod_cast hw
      rw [if_pos hzero]
      refine and_congr_right fun hrange' => ?_
      refine iff_of_true ?_ (show (0 : ℤ) < 2 ^ 30 by decide)
      show ((1 : ℕ) : ℤ) = 1 % 2 ^ (8 * root.size)
      rcases size_cases root with h | h | h | h <;> rw [h] <;> decide
    · have hvalue : (w.toNat : ℤ) = v := by
        rw [hw]
        exact Int.emod_eq_of_lt hpos.le hbounds.2
      have hnonzero : w ≠ 0 := by
        rintro rfl
        exact hpos.ne hvalue
      have hbig : v < 2 ^ 64 := by
        have := w.isLt
        omega
      have htoNat : v.toNat = w.toNat := by omega
      rw [if_neg hnonzero,getHiBitIdx64,if_neg hnonzero,nextFlag_iff hpos hbig,StepFits,htoNat]
      refine and_congr_right fun _ => ?_
      simp only [if_true]
      refine and_iff_left_of_imp fun hlt => Nat.mod_eq_of_lt ?_
      rw [Nat.log2_lt (by omega)]
      omega

theorem denoted_mod (root : RootType) (w : BitVec 64) :
    denoted root (stored root w) % 2 ^ (8 * root.size) = w.toNat % 2 ^ (8 * root.size) ∧
      -2 ^ 64 ≤ denoted root (stored root w) ∧ denoted root (stored root w) < 2 ^ 64 := by
  have hstored : (stored root w).toNat = w.toNat % 2 ^ (8 * root.size) := BitVec.toNat_setWidth ..
  have hcond := BitVec.toInt_eq_toNat_cond (stored root w)
  have hw := w.isLt
  unfold denoted
  rw [hcond,hstored]
  rcases size_cases root with h | h | h | h <;> rw [h] <;> split <;> omega

theorem denoted_zero (root : RootType) : denoted root (stored root 0) = 0 := by
  have hzero : stored root 0 = 0 := BitVec.eq_of_toNat_eq (by simp [stored])
  unfold denoted
  rw [hzero]
  simp

theorem good_zero (root : RootType) : Good root 0 0 := by
  refine ⟨?_,(Int.zero_emod _).symm⟩
  cases root with
  | bool => exact ⟨le_refl 0,by decide⟩
  | int kind => cases kind <;> simp [RootType.InRange,IntKind.isUnsigned,IntKind.width]

theorem good_one (root : RootType) : Good root 1 1 := by
  constructor
  · cases root with
    | bool => exact ⟨by decide,le_refl 1⟩
    | int kind => cases kind <;> simp [RootType.InRange,IntKind.isUnsigned,IntKind.width]
  · show ((1 : ℕ) : ℤ) = 1 % 2 ^ (8 * root.size)
    rcases size_cases root with h | h | h | h <;> rw [h] <;> decide

theorem start_iff (hiBitIdxOfZero : ℕ) (e : EnumType) :
    Good e.root
        (match e.baseConst with
          | some baseValue => nextValue e.isBitFlag (denoted e.root (stored e.root baseValue))
          | none => if e.isBitFlag then 1 else 0)
        (match e.baseConst with
          | some baseValue =>
            if e.isBitFlag then shiftedTwo (getHiBitIdx64 hiBitIdxOfZero baseValue)
            else baseValue + 1
          | none => if e.isBitFlag then 1 else 0) ↔ StartFits e := by
  unfold StartFits
  cases e.baseConst with
  | none =>
    refine iff_of_true ?_ trivial
    cases e.isBitFlag with
    | true => exact good_one e.root
    | false => exact good_zero e.root
  | some baseValue =>
    obtain ⟨hmod,hlow,hhigh⟩ := denoted_mod e.root baseValue
    have hzero : baseValue = 0 → denoted e.root (stored e.root baseValue) = 0 :=
      fun h => h ▸ denoted_zero e.root
    simp only
    generalize denoted e.root (stored e.root baseValue) = base at hmod hlow hhigh hzero ⊢
    cases e.isBitFlag with
    | false =>
      simp only [Bool.false_eq_true,if_false]
      refine and_congr_right fun hrange => ?_
      have hbounds := InRange_bounds hrange
      have hnext : nextValue false base = base + 1 := rfl
      rw [hnext] at hbounds ⊢
      have hone : (1 : BitVec 64).toNat = 1 := rfl
      rw [BitVec.toNat_add,hone]
      have hw := baseValue.isLt
      rcases size_cases e.root with h | h | h | h <;> rw [h] at hmod hbounds ⊢ <;> omega
    | true =>
      simp only [if_true]
      rcases Int.lt_trichotomy base 0 with hneg | rfl | hpos
      · exact iff_of_false (fun h => not_inRange_of_neg hneg h.1)
          (fun h => not_inRange_of_neg hneg h.1)
      · refine iff_of_false (fun h => ?_) (fun h => absurd h.2.1 (Int.lt_irrefl 0))
        have hone : (1 : ℤ) % 2 ^ (8 * e.root.size) = 1 := by
          rcases size_cases e.root with h | h | h | h <;> rw [h] <;> decide
        have hvalue := h.2
        have hnext : nextValue true 0 = 1 := rfl
        rw [hnext,hone] at hvalue
        exact shiftedTwo_ne_one _ (by exact_mod_cast hvalue)
      · have hnonzero : baseValue ≠ 0 := by
          rintro rfl
          exact hpos.ne' (hzero rfl)
        rw [getHiBitIdx64,if_neg hnonzero,nextFlag_iff hpos hhigh]
        refine and_congr_right fun _ => ?_
        exact (and_iff_right hpos).symm

theorem consts_iff (isBitFlag : Bool) (hiBitIdxOfZero : ℕ) (consts : List EnumConst)
    (hvalid : ∀ enumConst ∈ consts, enumConst.IsValid) {fits : Prop} (hfits : Good root v w ↔ fits) :
    List.Forall₂ (Good root) (expectedValues isBitFlag consts v)
        (calcValues (fun value =>
          if isBitFlag then if value = 0 then 1 else shiftedTwo (getHiBitIdx64 hiBitIdxOfZero value)
          else value + 1) consts w).1 ↔
      ConstsFit root isBitFlag consts v fits := by
  induction consts generalizing v w fits with
  | nil => exact iff_of_true List.Forall₂.nil trivial
  | cons enumConst rest ih =>
    have hrest := fun c hc => hvalid c (List.mem_cons_of_mem _ hc)
    obtain ⟨_,hconst⟩ := hvalid enumConst (List.mem_cons_self ..)
    unfold expectedValues calcValues ConstsFit
    cases hinit : enumConst.initializer with
    | none =>
      simp only [Option.map_none,Option.join_none,Option.getD_none,List.forall₂_cons]
      rw [hfits]
      refine and_congr_right fun h => ?_
      exact ih hrest (step_iff isBitFlag hiBitIdxOfZero (hfits.2 h))
    | some expr =>
      have hparse : parseConstIntegerExpression expr = some (expr.bits.setWidth 64) :=
        if_pos (hconst expr hinit)
      simp only [Option.map_some,hparse,Option.join_some,Option.getD_some,
        List.forall₂_cons]
      rw [explicit_iff]
      refine and_congr_right fun h => ?_
      exact ih hrest (step_iff isBitFlag hiBitIdxOfZero ((explicit_iff root expr).2 h))

theorem good_injective {v v' : ℤ} (h : Good root v w) (h' : Good root v' w) : v = v' := by
  obtain ⟨hrange,hvalue⟩ := h
  obtain ⟨hrange',hvalue'⟩ := h'
  cases root with
  | bool =>
    have hrange : 0 ≤ v ∧ v ≤ 1 := hrange
    have hrange' : 0 ≤ v' ∧ v' ≤ 1 := hrange'
    simp only [RootType.size] at hvalue hvalue'
    omega
  | int kind =>
    cases kind <;> simp only [RootType.InRange,IntKind.isUnsigned,IntKind.width,
      Bool.false_eq_true,if_true,if_false] at hrange hrange' <;>
      simp only [RootType.size,IntKind.width] at hvalue hvalue' <;> omega

theorem good_unique {w w' : BitVec 64} (h : Good root v w) (h' : Good root v w') :
    w = w' := by
  refine BitVec.eq_of_toNat_eq ?_
  have heq := h.2.trans h'.2.symm
  exact_mod_cast heq

/-- Every constant is found iff all of them are good and no two of them are equal. -/
theorem found_iff {vs : List ℤ} {ws : List (BitVec 64)} (hlength : vs.length = ws.length) :
    (∀ (i : ℕ) (v : ℤ) (w : BitVec 64), vs[i]? = some v → ws[i]? = some w →
        root.InRange v ∧ stored root w = BitVec.ofInt _ v ∧
          findStored root ws (stored root w) = some i) ↔
      List.Forall₂ (Good root) vs ws ∧ vs.Nodup := by
  constructor
  · intro h
    have hback : ∀ (i : ℕ) (v : ℤ) (w : BitVec 64), vs[i]? = some v → ws[i]? = some w →
        Good root v w ∧ ∀ j, i < j → ws[j]? ≠ some w := by
      intro i v w hv hw
      obtain ⟨hrange,hstored,hfound⟩ := h i v w hv hw
      obtain ⟨hi,hlater⟩ := findConst_eq_some.1 hfound
      have heq : (stored root w).setWidth 64 = w := Option.some.inj (hi.symm.trans hw)
      exact ⟨(good_iff root v w).2 ⟨hrange,hstored,heq⟩,heq ▸ hlater⟩
    refine ⟨List.forall₂_iff_get.2 ⟨hlength,fun i hi hi' => ?_⟩,?_⟩
    · exact (hback i _ _ (List.getElem?_eq_getElem hi) (List.getElem?_eq_getElem hi')).1
    · refine List.pairwise_iff_getElem.2 fun i j hi hj hij heq => ?_
      have hi' := hlength ▸ hi
      have hj' := hlength ▸ hj
      obtain ⟨hgood,hlater⟩ :=
        hback i _ _ (List.getElem?_eq_getElem hi) (List.getElem?_eq_getElem hi')
      have hgood' :=
        (hback j _ _ (List.getElem?_eq_getElem hj) (List.getElem?_eq_getElem hj')).1
      have hsame : ws[i] = ws[j] := good_unique (heq ▸ hgood) hgood'
      exact hlater j hij (hsame ▸ List.getElem?_eq_getElem hj')
  · rintro ⟨hgood,hnodup⟩ i v w hv hw
    obtain ⟨hi,rfl⟩ := List.getElem?_eq_some_iff.1 hv
    obtain ⟨hi',rfl⟩ := List.getElem?_eq_some_iff.1 hw
    have hat : ∀ (j : ℕ) (hj : j < vs.length) (hj' : j < ws.length), Good root vs[j] ws[j] :=
      (List.forall₂_iff_get.1 hgood).2
    obtain ⟨hrange,hstored,heq⟩ := (good_iff root _ _).1 (hat i hi hi')
    refine ⟨hrange,hstored,findConst_eq_some.2 ⟨by rwa [heq],fun j hij hj => ?_⟩⟩
    rw [heq] at hj
    obtain ⟨hj',hsame⟩ := List.getElem?_eq_some_iff.1 hj
    have hgood' := hat j (hlength ▸ hj') hj'
    rw [hsame] at hgood'
    exact List.pairwise_iff_getElem.1 hnodup i j hi (hlength ▸ hj') hij
      (good_injective (hat i hi hi') hgood')

theorem calcLayout_eq (hiBitIdxOfZero : ℕ) (e : EnumType) :
    calcLayout hiBitIdxOfZero e =
      calcValues (fun value =>
          if e.isBitFlag then
            if value = 0 then 1 else shiftedTwo (getHiBitIdx64 hiBitIdxOfZero value)
          else value + 1) e.constList
        (match e.baseConst with
          | some baseValue =>
            if e.isBitFlag then shiftedTwo (getHiBitIdx64 hiBitIdxOfZero baseValue)
            else baseValue + 1
          | none => if e.isBitFlag then 1 else 0) := by
  obtain ⟨root,isBitFlag,baseConst,constList⟩ := e
  cases isBitFlag <;> cases baseConst <;> rfl

theorem calcValues_result (next : BitVec 64 → BitVec 64) (consts : List EnumConst)
    (value : BitVec 64) :
    (calcValues next consts value).2 = true ↔ ∀ enumConst ∈ consts, enumConst.IsValid := by
  induction consts generalizing value with
  | nil => simp [calcValues]
  | cons enumConst rest ih =>
    rw [List.forall_mem_cons]
    unfold calcValues
    simp only [Bool.and_eq_true,ih,bne_iff_ne]
    refine and_congr_left fun _ => and_congr_right fun _ => ?_
    cases enumConst.initializer with
    | none => simp
    | some expr => simp [parseConstIntegerExpression]

theorem calcValues_length (next : BitVec 64 → BitVec 64) (isBitFlag : Bool)
    (consts : List EnumConst) (value : BitVec 64) (v : ℤ) :
    (expectedValues isBitFlag consts v).length = (calcValues next consts value).1.length := by
  induction consts generalizing value v with
  | nil => rfl
  | cons enumConst rest ih => exact congrArg (· + 1) (ih _ _)

/-- An enum is laid out as it should be iff one of its constants is rejected or all of them fit. -/
theorem enum_constants_iff (hiBitIdxOfZero : ℕ) (e : EnumType) :
    Meets hiBitIdxOfZero e ↔ e.Fits := by
  unfold Meets EnumType.Fits
  have hresult : (calcLayout hiBitIdxOfZero e).2 = true ↔
      ∀ enumConst ∈ e.constList, enumConst.IsValid := by
    rw [calcLayout_eq]
    exact calcValues_result ..
  have hlength : e.expected.length = (calcLayout hiBitIdxOfZero e).1.length := by
    rw [calcLayout_eq]
    exact calcValues_length ..
  rw [found_iff hlength]
  by_cases hvalid : ∀ enumConst ∈ e.constList, enumConst.IsValid
  · have hconsts := consts_iff e.isBitFlag hiBitIdxOfZero e.constList hvalid
      (start_iff hiBitIdxOfZero e)
    rw [← calcLayout_eq] at hconsts
    rw [hresult.2 hvalid]
    have hnone : ¬∃ enumConst ∈ e.constList, ¬enumConst.IsValid := by
      rintro ⟨enumConst,hmem,hnot⟩
      exact hnot (hvalid enumConst hmem)
    rw [or_iff_right hnone,or_iff_right (by decide)]
    exact and_congr_left fun _ => hconsts
  · refine iff_of_true (Or.inl ?_) (Or.inl ?_)
    · exact Bool.eq_false_iff.2 fun h => hvalid (hresult.1 h)
    · push Not at hvalid
      exact hvalid

/-- The constant after −1 is above the range, and it is not found by its representation. -/
theorem after_minus_one : ¬∀ hiBitIdxOfZero e, Meets hiBitIdxOfZero e := by
  intro h
  have hmeets := h 0
    { root := .int .int32
      isBitFlag := false
      baseConst := none
      constList := [
        ⟨"A",true,some ⟨.int .int32,true,-1⟩⟩,
        ⟨"B",true,none⟩] }
  rcases hmeets with hrejected | hall
  · revert hrejected
    decide
  · have hfound := (hall 1 0 (2 ^ 32) rfl (by decide)).2.2
    revert hfound
    decide

end Jancy.Ct.EnumConsts
