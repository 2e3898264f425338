import Jancy.Ct.PtrArithmetic
import Mathlib.Tactic.Linarith

/-! The paths of pointer arithmetic, each compared with the address that is meant. -/
namespace Jancy.Ct.PtrArithmetic

variable {op : IndexOperand} {p : Address} {size : BitVec 64} {target : TargetType}
  {opValue1 : PtrOperand} {opValue2 : IndexOperand}

theorem castIndex_eq (op : IndexOperand) (dst : IntKind) :
    castIndex op dst = BitVec.ofInt dst.width op.toInt := by
  obtain ⟨kind,_,bits⟩ := op
  cases kind with
  | bool1 =>
    show bits.setWidth dst.width = BitVec.ofInt dst.width (bits.toNat : ℤ)
    rw [BitVec.ofInt_natCast,BitVec.ofNat_toNat]
  | bool8 => rfl
  | int kind =>
    show castInt kind dst bits =
      BitVec.ofInt dst.width (if kind.isUnsigned then (bits.toNat : ℤ) else bits.toInt)
    cases hkind : kind.isUnsigned with
    | true =>
      simp only [castInt,hkind,if_true]
      rw [BitVec.ofInt_natCast,BitVec.ofNat_toNat]
      rfl
    | false =>
      simp only [castInt,hkind,Bool.false_eq_true,if_false]
      rfl

theorem ofInt_eq_iff {a b : ℤ} {w : ℕ} :
    BitVec.ofInt w a = BitVec.ofInt w b ↔ (2 ^ w : ℤ) ∣ a - b := by
  rw [← BitVec.toInt_inj,BitVec.toInt_ofInt,BitVec.toInt_ofInt,
    Int.bmod_eq_bmod_iff_bmod_sub_eq_zero,← Int.dvd_iff_bmod_eq_zero]
  push_cast
  rfl

theorem offset_eq_iff {a b : ℤ} :
    p + BitVec.ofInt 64 a = p + BitVec.ofInt 64 b ↔ (2 ^ 64 : ℤ) ∣ a - b := by
  rw [BitVec.add_right_inj,ofInt_eq_iff]

theorem ofInt_mul_size (n : ℤ) (size : BitVec 64) :
    BitVec.ofInt 64 n * size = BitVec.ofInt 64 (n * size.toNat) := by
  rw [BitVec.ofInt_mul,BitVec.ofInt_natCast,BitVec.ofNat_toNat,BitVec.setWidth_eq]

theorem createGep_eq (p : Address) (size : BitVec 64) {width : ℕ} (index : BitVec width) :
    createGep p size index = p + BitVec.ofInt 64 (index.toInt * size.toNat) := by
  rw [← ofInt_mul_size]
  rfl

theorem toInt_bits (op : IndexOperand) :
    op.bits.toInt = op.toInt ∨
      op.kind.isUnsigned = true ∧ 2 ^ op.kind.width ≤ 2 * op.toInt ∧
        op.bits.toInt = op.toInt - 2 ^ op.kind.width := by
  unfold IndexOperand.toInt
  cases hkind : op.kind.isUnsigned with
  | false => exact Or.inl rfl
  | true =>
    simp only [if_true]
    rw [BitVec.toInt_eq_toNat_cond]
    split
    next => exact Or.inl rfl
    next h =>
      refine Or.inr ⟨trivial,?_,?_⟩
      · exact_mod_cast Nat.le_of_not_lt h
      · push_cast
        rfl

theorem toInt_range (op : IndexOperand) :
    op.kind.isUnsigned = true ∧ 0 ≤ op.toInt ∧ op.toInt < 2 ^ op.kind.width ∨
      op.kind.isUnsigned = false ∧ -2 ^ op.kind.width ≤ 2 * op.toInt ∧
        2 * op.toInt < 2 ^ op.kind.width := by
  unfold IndexOperand.toInt
  cases hkind : op.kind.isUnsigned with
  | true =>
    simp only [if_true]
    exact Or.inl ⟨trivial,Int.natCast_nonneg _,by exact_mod_cast op.bits.isLt⟩
  | false => exact Or.inr ⟨rfl,BitVec.le_two_mul_toInt,BitVec.two_mul_toInt_lt⟩

theorem promoted_bounds (op : IndexOperand) :
    match op.kind.promoted with
    | .int32 => -2 ^ 31 ≤ op.toInt ∧ op.toInt < 2 ^ 31
    | .int32_u => 0 ≤ op.toInt ∧ op.toInt < 2 ^ 32
    | _ => -2 ^ 63 ≤ op.toInt ∧ op.toInt < 2 ^ 64 := by
  have h := toInt_range op
  generalize op.toInt = n at h ⊢
  cases hkind : op.kind with
  | int kind =>
    rw [hkind] at h
    cases kind <;> simp only [IndexKind.isUnsigned,IndexKind.width,IntKind.isUnsigned,
      IntKind.width,reduceCtorEq,false_and,true_and,or_false,false_or] at h <;>
      simp only [IndexKind.promoted,IntKind.promoted] <;> omega
  | bool1 | bool8 =>
    rw [hkind] at h
    simp only [IndexKind.isUnsigned,IndexKind.width,reduceCtorEq,false_and,true_and,or_false,
      false_or] at h
    simp only [IndexKind.promoted]
    omega

theorem createGep_iff (p : Address) (op : IndexOperand) (size : BitVec 64) :
    createGep p size op.bits = elementAddress p op.toInt size ↔ op.GepFits size := by
  rw [createGep_eq,elementAddress,offset_eq_iff,← Int.sub_mul,IndexOperand.GepFits]
  rcases toInt_bits op with heq | ⟨hunsigned,hhigh,heq⟩
  · rw [heq]
    have hfits : 2 * op.toInt < 2 ^ op.kind.width := heq ▸ BitVec.two_mul_toInt_lt
    simp [hfits]
  · have hscaled : (op.bits.toInt - op.toInt) * (size.toNat : ℤ) =
        -((2 ^ op.kind.width * size.toNat : ℕ) : ℤ) := by
      rw [heq]
      push_cast
      ring
    rw [hscaled,Int.dvd_neg]
    have hhigh : ¬2 * op.toInt < 2 ^ op.kind.width := Int.not_lt.2 hhigh
    simp only [hunsigned,hhigh,Bool.true_eq_false,false_or]
    exact_mod_cast Int.natCast_dvd_natCast (m := 2 ^ 64)

theorem bytes_eq (p : Address) {n : ℤ} {index : BitVec 64} (h : index = BitVec.ofInt 64 n)
    (size : BitVec 64) : createGep p 1 (index * size) = elementAddress p n size := by
  rw [h,ofInt_mul_size,createGep,BitVec.signExtend_eq,elementAddress]
  exact congrArg (p + ·) (BitVec.mul_one _)

theorem size_zero_iff {p : Address} {n m : ℤ} (hn : -2 ^ 63 ≤ n) (hn' : n < 2 ^ 64) :
    elementAddress p n 1 = elementAddress p m 0 ↔ n = 0 := by
  rw [elementAddress,elementAddress,offset_eq_iff]
  show (2 ^ 64 : ℤ) ∣ n * ((1 : ℕ) : ℤ) - m * ((0 : ℕ) : ℤ) ↔ n = 0
  omega

theorem toInt_bounds (op : IndexOperand) : -2 ^ 63 ≤ op.toInt ∧ op.toInt < 2 ^ 64 := by
  have h := promoted_bounds op
  split at h <;> omega

theorem increment_iff (target : TargetType) (opValue1 : PtrOperand) (opValue2 : IndexOperand) :
    dataPtrIncrementOperator target opValue1 opValue2 = .ok { opValue1 with
        isConst := opValue1.isConst && opValue2.isConst
        p := elementAddress opValue1.p opValue2.toInt target.size } ↔
      IncrementFits target opValue1 opValue2 := by
  obtain ⟨ptrKind,isConst,p⟩ := opValue1
  unfold dataPtrIncrementOperator IncrementFits
  cases habstract : target.isAbstractData with
  | true => simp
  | false =>
    simp only [Bool.false_eq_true,if_false,true_and]
    cases hconst : isConst && opValue2.isConst with
    | true =>
      have hindex : castIndex opValue2 .int64 = BitVec.ofInt 64 opValue2.toInt :=
        castIndex_eq opValue2 .int64
      have hboth := Bool.and_eq_true_iff.1 hconst
      simp only [if_true,hindex,ofInt_mul_size,hboth,and_self,true_or,iff_true]
      rfl
    | false =>
      have hboth : ¬(isConst = true ∧ opValue2.isConst = true) :=
        fun h => absurd (Bool.and_eq_true_iff.2 h) (by rw [hconst]; decide)
      simp only [Bool.false_eq_true,if_false,hboth,false_or]
      cases ptrKind with
      | normal =>
        simp only [Except.ok.injEq,PtrOperand.mk.injEq,true_and]
        rw [bytes_eq p (castIndex_eq opValue2 .int64_u)]
        by_cases hzero : target.size = 0
        · have hbounds := toInt_bounds opValue2
          simp only [hzero,if_true,ne_eq,not_true,false_or]
          exact size_zero_iff hbounds.1 hbounds.2
        · simp only [hzero,if_false,ne_eq,not_false_eq_true,true_or]
      | thin | lean =>
        cases hvoid : target.isVoid with
        | true => simp
        | false => simpa using createGep_iff p opValue2 target.size

theorem negOperator_toInt (op : IndexOperand) :
    (negOperator op).bits.toInt = (-op.toInt).bmod (2 ^ op.kind.promoted.width) ∧
      (negOperator op).toInt =
        if op.kind.promoted.isUnsigned then -op.toInt % 2 ^ op.kind.promoted.width
        else (-op.toInt).bmod (2 ^ op.kind.promoted.width) := by
  have hbits : (negOperator op).bits = BitVec.ofInt op.kind.promoted.width (-op.toInt) := by
    rw [BitVec.ofInt_neg,← castIndex_eq]
    rfl
  have hsigned : (negOperator op).bits.toInt = (-op.toInt).bmod (2 ^ op.kind.promoted.width) := by
    rw [hbits]
    exact BitVec.toInt_ofInt _
  refine ⟨hsigned,?_⟩
  show (if op.kind.promoted.isUnsigned then ((negOperator op).bits.toNat : ℤ)
    else (negOperator op).bits.toInt) = _
  rw [hsigned]
  refine if_congr Iff.rfl ?_ rfl
  rw [hbits]
  have hpos : (0 : ℤ) < 2 ^ op.kind.promoted.width := by positivity
  show ((BitVec.ofInt op.kind.promoted.width (-op.toInt)).toNat : ℤ) = _
  rw [BitVec.toNat_ofInt,Int.toNat_of_nonneg]
  · push_cast
    rfl
  · push_cast
    exact Int.emod_nonneg _ hpos.ne'

theorem IndexKind.promoted_cases (kind : IndexKind) :
    kind.promoted = .int32 ∨ kind.promoted = .int32_u ∨ kind.promoted = .int64 ∨
      kind.promoted = .int64_u := by
  cases kind with
  | bool1 | bool8 => exact Or.inl rfl
  | int kind => cases kind <;> simp [IndexKind.promoted,IntKind.promoted]

theorem turn_scaled_iff {d : ℤ} {size : ℕ} {fits : Prop}
    (h : fits ∧ d = 0 ∨ ¬fits ∧ (d = 2 ^ 32 ∨ d = -2 ^ 32)) :
    (2 ^ 64 : ℤ) ∣ d * size ↔ 2 ^ 32 ∣ size ∨ fits := by
  rcases h with ⟨hfits,rfl⟩ | ⟨hfits,hd⟩
  · exact iff_of_true (by rw [Int.zero_mul]; exact Int.dvd_zero _) (Or.inr hfits)
  · rw [or_iff_left hfits]
    rcases hd with rfl | rfl <;> omega

theorem neg_turn (op : IndexOperand) (isGep : Bool) {d : ℤ}
    (hd : d = (if isGep then (negOperator op).bits.toInt else (negOperator op).toInt) - -op.toInt) :
    match op.kind.promoted with
    | .int32 => (op.toInt ≠ -2 ^ 31 ∧ d = 0) ∨ (op.toInt = -2 ^ 31 ∧ d = -2 ^ 32)
    | .int32_u => (if isGep then op.toInt ≤ 2 ^ 31 ∧ d = 0 ∨ 2 ^ 31 < op.toInt ∧ d = 2 ^ 32
        else op.toInt = 0 ∧ d = 0 ∨ op.toInt ≠ 0 ∧ d = 2 ^ 32)
    | _ => (2 ^ 64 : ℤ) ∣ d := by
  obtain ⟨hbits,hvalue⟩ := negOperator_toInt op
  have hbounds := promoted_bounds op
  rw [hbits,hvalue] at hd
  generalize op.toInt = n at hbounds hd ⊢
  rcases op.kind.promoted_cases with hkind | hkind | hkind | hkind <;>
    rw [hkind] at hbounds hd ⊢ <;> cases isGep <;>
    simp only [IntKind.isUnsigned,IntKind.width,Int.bmod_def,Bool.false_eq_true,if_true,
      if_false] at hd hbounds ⊢ <;> (first | split at hd | skip) <;> omega

theorem neg_scaled_iff (op : IndexOperand) (isGep : Bool) (size : BitVec 64) :
    (2 ^ 64 : ℤ) ∣ (if isGep then (negOperator op).bits.toInt else (negOperator op).toInt) *
        size.toNat - -op.toInt * size.toNat ↔ op.NegFits isGep size := by
  have hturn := neg_turn op isGep rfl
  rw [IndexOperand.NegFits,← Int.sub_mul]
  generalize (if isGep then (negOperator op).bits.toInt else (negOperator op).toInt) -
    -op.toInt = d at hturn ⊢
  rcases op.kind.promoted_cases with hkind | hkind | hkind | hkind <;> rw [hkind] at hturn ⊢
  · exact turn_scaled_iff (hturn.imp_right fun h => ⟨not_not_intro h.1,Or.inr h.2⟩)
  · cases isGep with
    | true => exact turn_scaled_iff (hturn.imp_right fun h => ⟨Int.not_le.2 h.1,Or.inl h.2⟩)
    | false => exact turn_scaled_iff (hturn.imp_right fun h => ⟨h.1,Or.inl h.2⟩)
  all_goals
    simp only [or_true,iff_true]
    exact Dvd.dvd.mul_right hturn _

theorem neg_zero_iff (op : IndexOperand) {p : Address} {m : ℤ} :
    elementAddress p (negOperator op).toInt 1 = elementAddress p m 0 ↔ op.toInt = 0 := by
  have hbounds := toInt_bounds (negOperator op)
  rw [size_zero_iff hbounds.1 hbounds.2]
  have hturn := neg_turn op false rfl
  have hpromoted := promoted_bounds op
  simp only [Bool.false_eq_true,if_false] at hturn
  rcases op.kind.promoted_cases with hkind | hkind | hkind | hkind <;>
    rw [hkind] at hturn hpromoted <;> simp only at hturn hpromoted <;> omega

theorem decrement_iff (target : TargetType) (opValue1 : PtrOperand) (opValue2 : IndexOperand) :
    dataPtrDecrementOperator target opValue1 opValue2 = .ok { opValue1 with
        isConst := opValue1.isConst && opValue2.isConst
        p := elementAddress opValue1.p (-opValue2.toInt) target.size } ↔
      DecrementFits target opValue1 opValue2 := by
  obtain ⟨ptrKind,isConst,p⟩ := opValue1
  have hnegConst : (negOperator opValue2).isConst = opValue2.isConst := rfl
  unfold dataPtrDecrementOperator dataPtrIncrementOperator DecrementFits
  cases habstract : target.isAbstractData with
  | true => simp
  | false =>
    simp only [Bool.false_eq_true,if_false,true_and,hnegConst]
    cases hconst : isConst && opValue2.isConst with
    | true =>
      have hindex : castIndex (negOperator opValue2) .int64 =
        BitVec.ofInt 64 (negOperator opValue2).toInt := castIndex_eq _ .int64
      have hboth := Bool.and_eq_true_iff.1 hconst
      simp only [if_true,hindex,ofInt_mul_size,Except.ok.injEq,PtrOperand.mk.injEq,hboth,
        true_and,elementAddress]
      rw [offset_eq_iff]
      exact neg_scaled_iff opValue2 false target.size
    | false =>
      simp only [Bool.false_eq_true,if_false]
      cases ptrKind with
      | normal =>
        simp only [Except.ok.injEq,PtrOperand.mk.injEq,true_and]
        rw [bytes_eq p (castIndex_eq (negOperator opValue2) .int64_u)]
        by_cases hzero : target.size = 0
        · simp only [hzero,if_true]
          exact neg_zero_iff opValue2
        · simp only [hzero,if_false]
          rw [elementAddress,elementAddress,offset_eq_iff]
          exact neg_scaled_iff opValue2 false target.size
      | thin | lean =>
        cases hvoid : target.isVoid with
        | true => simp
        | false =>
          simp only [Bool.false_eq_true,if_false,Except.ok.injEq,PtrOperand.mk.injEq,
            true_and]
          rw [createGep_eq,elementAddress,offset_eq_iff]
          exact neg_scaled_iff opValue2 true target.size

theorem tdiv_size (d : ℤ) (size : ℕ) :
    0 ≤ d ∧ d.tdiv size = (d.natAbs / size : ℕ) ∨ d < 0 ∧ d.tdiv size = -(d.natAbs / size : ℕ) := by
  rcases d with n | n
  · exact Or.inl ⟨Int.natCast_nonneg n,rfl⟩
  · refine Or.inr ⟨Int.negSucc_lt_zero n,?_⟩
    rfl

theorem udiv_iff {x size : BitVec 64} (hsize : size ≠ 0) :
    (x / size).toInt = x.toInt.tdiv size.toNat ↔
      size = 1 ∨ 0 ≤ x.toInt ∨ x.toNat < size.toNat := by
  have hx := x.isLt
  have hpos : 0 < size.toNat := Nat.pos_of_ne_zero fun h => hsize (BitVec.eq_of_toNat_eq h)
  by_cases hone : size = 1
  · subst hone
    have hdiv : x / 1 = x := BitVec.udiv_one
    rw [hdiv]
    simp
  have htwo : 2 ≤ size.toNat := by
    have : size.toNat ≠ 1 := fun h => hone (BitVec.eq_of_toNat_eq h)
    omega
  have hhalf : x.toNat / size.toNat < 2 ^ 63 := by
    have : x.toNat / size.toNat ≤ x.toNat / 2 := Nat.div_le_div_left htwo (by decide)
    omega
  have hquot : (x / size).toInt = (x.toNat / size.toNat : ℕ) := by
    rw [BitVec.toInt_eq_toNat_cond,BitVec.toNat_udiv,if_pos (by omega)]
  rw [hquot]
  simp only [hone,false_or]
  have hxInt := BitVec.toInt_eq_toNat_cond x
  rcases tdiv_size x.toInt size.toNat with ⟨hsign,hd⟩ | ⟨hsign,hd⟩
  · have habs : x.toInt.natAbs = x.toNat := by
      split at hxInt <;> omega
    rw [hd,habs]
    exact iff_of_true rfl (Or.inl hsign)
  · have habs : x.toInt.natAbs = 2 ^ 64 - x.toNat := by
      split at hxInt <;> omega
    have hhigh : 2 ^ 63 ≤ x.toNat := by
      split at hxInt <;> omega
    rw [hd,habs,or_iff_right (Int.not_le.2 hsign)]
    constructor
    · intro heq
      refine (Nat.div_eq_zero_iff_lt hpos).1 ?_
      generalize (2 ^ 64 - x.toNat) / size.toNat = rest at heq
      generalize x.toNat / size.toNat = q at heq ⊢
      omega
    · intro hlt
      have hrest : 2 ^ 64 - x.toNat < size.toNat := by omega
      rw [Nat.div_eq_of_lt hlt,Nat.div_eq_of_lt hrest]
      rfl

theorem sdiv_iff {x size : BitVec 64} (hsize : size ≠ 0) :
    (x.sdiv size).toInt = x.toInt.tdiv size.toNat ↔
      size.toNat < 2 ^ 63 ∨ x.toInt.natAbs + size.toNat < 2 ^ 64 := by
  have hpos : 0 < size.toNat := Nat.pos_of_ne_zero fun h => hsize (BitVec.eq_of_toNat_eq h)
  have hle : -2 ^ 63 ≤ x.toInt := BitVec.le_toInt x
  have hlt : x.toInt < 2 ^ 63 := BitVec.toInt_lt
  have hsizeInt := BitVec.toInt_eq_toNat_cond size
  rw [BitVec.toInt_sdiv]
  by_cases hsmall : size.toNat < 2 ^ 63
  · rw [if_pos (by omega)] at hsizeInt
    rw [hsizeInt]
    refine iff_of_true ?_ (Or.inl hsmall)
    have hbound := Nat.div_le_self x.toInt.natAbs size.toNat
    rcases tdiv_size x.toInt size.toNat with ⟨hsign,hd⟩ | ⟨hsign,hd⟩
    all_goals
      rw [hd,Int.bmod_def]
      generalize x.toInt.natAbs / size.toNat = q at hbound ⊢
      split <;> omega
  · rw [if_neg (by omega)] at hsizeInt
    have hneg : size.toInt = -((2 ^ 64 - size.toNat : ℕ) : ℤ) := by omega
    rw [hneg,Int.tdiv_neg,or_iff_right hsmall]
    generalize hB : 2 ^ 64 - size.toNat = B at *
    have hbound := Nat.div_le_self x.toInt.natAbs B
    have hzeroB := Nat.div_eq_zero_iff_lt (x := x.toInt.natAbs) (k := B) (by omega)
    have hzero := Nat.div_eq_zero_iff_lt (x := x.toInt.natAbs) hpos
    have hle_one : x.toInt.natAbs / size.toNat ≤ 1 := by
      have := Nat.div_le_div_right (c := size.toNat) (show x.toInt.natAbs ≤ size.toNat by omega)
      rwa [Nat.div_self hpos] at this
    rcases tdiv_size x.toInt size.toNat with ⟨hsign,hd⟩ | ⟨hsign,hd⟩ <;>
      rcases tdiv_size x.toInt B with ⟨hsign',hd'⟩ | ⟨hsign',hd'⟩
    all_goals
      rw [hd,hd',Int.bmod_def]
      generalize x.toInt.natAbs / size.toNat = q at *
      generalize x.toInt.natAbs / B = r at *
      split <;> omega

theorem difference_iff (target : TargetType) (opValue1 opValue2 : PtrOperand) :
    (∃ d, dataPtrDifferenceOperator target target opValue1 opValue2 = .ok d ∧
      (target.size ≠ 0 → d.toInt = elementDistance opValue1.p opValue2.p target.size)) ↔
      DifferenceFits target opValue1 opValue2 := by
  unfold dataPtrDifferenceOperator DifferenceFits
  rw [if_neg (not_not_intro rfl)]
  cases habstract : target.isAbstractData with
  | true => simp
  | false =>
    simp only [Bool.false_eq_true,if_false,true_and]
    by_cases hzero : target.size = 0
    · simp [hzero]
    simp only [hzero,if_false,false_or]
    cases hconst : opValue1.isConst && opValue2.isConst with
    | true =>
      simp only [if_true,Except.ok.injEq,exists_eq_left',ne_eq,hzero,not_false_eq_true,
        forall_const]
      exact udiv_iff hzero
    | false =>
      simp only [Bool.false_eq_true,if_false,Except.ok.injEq,exists_eq_left',ne_eq,hzero,
        not_false_eq_true,forall_const]
      exact sdiv_iff hzero

theorem elementDistance_iff (p : Address) (n : ℤ) {size : BitVec 64} (hsize : size ≠ 0) :
    elementDistance (elementAddress p n size) p size = n ↔
      -2 ^ 63 ≤ n * size.toNat ∧ n * size.toNat < 2 ^ 63 := by
  have hpos : 0 < size.toNat := Nat.pos_of_ne_zero fun h => hsize (BitVec.eq_of_toNat_eq h)
  have hoffset : elementAddress p n size - p = BitVec.ofInt 64 (n * size.toNat) := by
    rw [elementAddress,BitVec.add_comm,BitVec.add_sub_cancel]
  rw [elementDistance,hoffset,BitVec.toInt_ofInt]
  constructor
  · intro hquot
    -- the remainder is less than a turn, so there is no turn between the offset and its residue
    generalize hd : (n * size.toNat).bmod (2 ^ 64) = d at hquot
    have hdiv := Int.tdiv_mul_add_tmod d size.toNat
    have hrest : (d.tmod size.toNat).natAbs < size.toNat := by
      rw [Int.natAbs_tmod]
      exact Nat.mod_lt _ hpos
    rw [hquot] at hdiv
    generalize d.tmod size.toNat = rest at hdiv hrest
    generalize n * (size.toNat : ℤ) = offset at hd hdiv ⊢
    rw [Int.bmod_def] at hd
    split at hd <;> omega
  · rintro ⟨hle,hlt⟩
    rw [Int.bmod_eq_of_le (by omega) (by omega)]
    exact Int.mul_tdiv_cancel n (by omega)

/-- When the address or the distance is the one that is meant, for each operator and each path of
it; and when an element is found again at its index. -/
theorem pointer_arithmetic_iff (target : TargetType) (opValue1 opValue3 : PtrOperand)
    (opValue2 : IndexOperand) :
    (dataPtrIncrementOperator target opValue1 opValue2 = .ok { opValue1 with
        isConst := opValue1.isConst && opValue2.isConst
        p := elementAddress opValue1.p opValue2.toInt target.size } ↔
      IncrementFits target opValue1 opValue2) ∧
    (dataPtrDecrementOperator target opValue1 opValue2 = .ok { opValue1 with
        isConst := opValue1.isConst && opValue2.isConst
        p := elementAddress opValue1.p (-opValue2.toInt) target.size } ↔
      DecrementFits target opValue1 opValue2) ∧
    ((∃ d, dataPtrDifferenceOperator target target opValue1 opValue3 = .ok d ∧
        (target.size ≠ 0 → d.toInt = elementDistance opValue1.p opValue3.p target.size)) ↔
      DifferenceFits target opValue1 opValue3) ∧
    ∀ ptr, dataPtrIncrementOperator target opValue1 opValue2 = .ok ptr →
      IncrementFits target opValue1 opValue2 → DifferenceFits target ptr opValue1 →
      target.size ≠ 0 →
      ((∃ d, dataPtrDifferenceOperator target target ptr opValue1 = .ok d ∧
          d.toInt = opValue2.toInt) ↔
        -2 ^ 63 ≤ opValue2.toInt * target.size.toNat ∧
          opValue2.toInt * target.size.toNat < 2 ^ 63) := by
  refine ⟨increment_iff target opValue1 opValue2,decrement_iff target opValue1 opValue2,
    difference_iff target opValue1 opValue3,fun ptr hptr hinc hdiff hsize => ?_⟩
  have hmeant := (increment_iff target opValue1 opValue2).2 hinc
  obtain ⟨d,hd,hdistance⟩ := (difference_iff target ptr opValue1).2 hdiff
  obtain rfl := Except.ok.inj (hptr.symm.trans hmeant)
  rw [← elementDistance_iff opValue1.p opValue2.toInt hsize,← hdistance hsize]
  constructor
  · rintro ⟨d',hd',hn⟩
    obtain rfl := Except.ok.inj (hd.symm.trans hd')
    exact hn
  · exact fun hn => ⟨d,hd,hn⟩

section Examples

def int32Target : TargetType := ⟨"i",4,false,false,by decide⟩

def byteTarget : TargetType := ⟨"y",1,false,false,by decide⟩

def emptyTarget : TargetType := ⟨"Sempty",0,false,false,by decide⟩

/-- `p + n` for a thin byte pointer and an unsigned byte of 200, `p + 1` for a pointer to an empty
struct, `p - n` for an unsigned integer of 1, and the difference of two constant addresses. -/
theorem not_meant :
    (dataPtrIncrementOperator byteTarget ⟨.thin,false,4096⟩ ⟨.int .int8_u,false,200⟩ =
      .ok ⟨.thin,false,4040⟩ ∧ elementAddress 4096 200 1 = 4296) ∧
    (dataPtrIncrementOperator emptyTarget ⟨.normal,false,4096⟩ ⟨.int .int32,false,1⟩ =
      .ok ⟨.normal,false,4097⟩ ∧ elementAddress 4096 1 0 = 4096) ∧
    (dataPtrDecrementOperator byteTarget ⟨.normal,false,4096⟩ ⟨.int .int32_u,false,1⟩ =
      .ok ⟨.normal,false,0x100000fff⟩ ∧ elementAddress 4096 (-1) 1 = 4095) ∧
    (dataPtrDifferenceOperator int32Target int32Target ⟨.thin,true,4096⟩ ⟨.thin,true,4112⟩ =
      .ok 0x3ffffffffffffffc ∧ elementDistance 4096 4112 4 = -4) := by
  refine ⟨⟨rfl,?_⟩,⟨rfl,?_⟩,⟨rfl,?_⟩,⟨rfl,?_⟩⟩ <;> decide

/-- The second element of an array of integers is found again. -/
theorem pointer_arithmetic_second :
    (∃ d, dataPtrDifferenceOperator int32Target int32Target ⟨.thin,false,4104⟩
        ⟨.thin,false,4096⟩ = .ok d ∧ d.toInt = 2) ↔
      -2 ^ 63 ≤ (2 : ℤ) * 4 ∧ (2 : ℤ) * 4 < 2 ^ 63 :=
  (pointer_arithmetic_iff int32Target ⟨.thin,false,4096⟩ ⟨.thin,false,4096⟩
    ⟨.int .int32,false,2⟩).2.2.2 ⟨.thin,false,4104⟩ rfl
    ⟨rfl,Or.inr ⟨rfl,Or.inl rfl⟩⟩ ⟨rfl,Or.inr (Or.inl (by decide))⟩ (by decide)

end Examples

end Jancy.Ct.PtrArithmetic
