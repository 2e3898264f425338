import Jancy.Api.Variant
import Mathlib.Data.Int.ModEq
import Mathlib.Tactic.Linarith

/-! What a comparison of variants computes: the integers that the operands stand for, and the steps
of a comparison that has a result. -/
namespace Jancy.Api

namespace IntKind

/-- The number that an operand of this kind stands for. -/
def value (k : IntKind) (w : Word) : ℤ :=
  let x := w.setWidth (8 * k.size)
  if k.signExtends then x.toInt else x.toNat

theorem value_cases (k : IntKind) (w : Word) :
    k.value w = (w.toNat % 2 ^ (8 * k.size) : ℕ) ∨
      (k.signExtends = true ∧ 2 ^ (8 * k.size) ≤ 2 * (w.toNat % 2 ^ (8 * k.size)) ∧
        k.value w = (w.toNat % 2 ^ (8 * k.size) : ℕ) - 2 ^ (8 * k.size)) := by
  unfold value
  cases h : k.signExtends
  · left
    simp
  · simp only [BitVec.toInt, BitVec.toNat_setWidth, if_true, true_and]
    by_cases hsmall : 2 * (w.toNat % 2 ^ (8 * k.size)) < 2 ^ (8 * k.size)
    · left
      rw [if_pos hsmall]
    · right
      rw [if_neg hsmall]
      exact ⟨Nat.le_of_not_lt hsmall,by push_cast; rfl⟩

theorem rank_lt (k : IntKind) : k.rank < 10 := by cases k <;> decide

end IntKind

theorem castInt_eq (n : ℕ) (k : IntKind) (w : Word) : castInt n k w = BitVec.ofInt n (k.value w) := by
  unfold castInt IntKind.value
  cases k.signExtends
  · apply BitVec.eq_of_toNat_eq
    simp only [Bool.false_eq_true, if_false, BitVec.toNat_setWidth, BitVec.toNat_ofInt]
    rw [← Int.natCast_emod,Int.toNat_natCast]
  · rfl

theorem ofInt_eq_iff {n : ℕ} {x y : ℤ} :
    BitVec.ofInt n x = BitVec.ofInt n y ↔ x ≡ y [ZMOD 2 ^ n] := by
  have hpos : (0 : ℤ) < ((2 ^ n : ℕ) : ℤ) := by positivity
  have hx := Int.emod_nonneg x hpos.ne'
  have hy := Int.emod_nonneg y hpos.ne'
  rw [← BitVec.toNat_inj,BitVec.toNat_ofInt,BitVec.toNat_ofInt,Int.ModEq]
  push_cast at hx hy ⊢
  omega

namespace VarType

/-- How a type takes part in comparison and hash. A `word` is a pointer that is hashed by its
address, a `fat` one has a closure that is hashed too. -/
inductive View where
  | int (k : IntKind)
  | fp
  | word (isChar : Bool)
  | fat
  | arrayRef (isChar : Bool) (size : ℕ)
  | string
  | array (isChar : Bool)
  | struct

def view : VarType → View
  | int k | enum _ k => .int k
  | float | double => .fp
  | string => .string
  | array isChar .. => .array isChar
  | struct .. | structRef .. => .struct
  | arrayRef isChar _ size => .arrayRef isChar size
  | ptr .charPtr _ => .word true
  | ptr .functionPtr _ | ptr .propertyPtr _ => .fat
  | ptr _ _ => .word false

/-- What `prepareOperand` makes of a value, if it does not fail. -/
def operand (word : ℕ → Word) : VarType → Operand
  | int k | enum _ k => .int k (word 0)
  | float => .float (word 0)
  | double => .double (word 0)
  | string => .string (word 0) (word 4)
  | array isChar _ size => .array isChar (bytesOf word size)
  | struct .. | structRef .. => .struct
  | ptr kind _ => .ptr kind (word 0) (word 1)
  | arrayRef isChar .. => .ptr (if isChar then .charPtr else .dataPtr) (word 0) (word 1)

/-- A value that is compared by its address. -/
def View.IsAddress : View → Prop
  | .word _ | .fat | .arrayRef .. => True
  | _ => False

/-- A value that is compared as an integer. -/
def View.IsNumber (V : View) : Prop := (∃ k, V = .int k) ∨ V.IsAddress

/-- Addresses are compared as `TypeKind_IntPtr`. -/
def View.kind : View → IntKind
  | .int k => k
  | _ => .int64

def number (word : ℕ → Word) (T : VarType) : ℤ := T.view.kind.value (word 0)

variable {m : Memory} {S T : VarType} {word word' : ℕ → Word} {k l : IntKind} {C : CmpType}

theorem prepareOperand_ok {o : Operand} (h : prepareOperand m word T = .ok o) :
    o = T.operand word := by
  cases T with
  | structRef id size =>
    simp only [prepareOperand] at h
    split at h
    · cases hload : m.load (word 0) size with
      | error e =>
        rw [hload] at h
        cases h
      | ok bytes =>
        rw [hload] at h
        exact (Except.ok.inj h).symm
    · cases h
  | _ => exact (Except.ok.inj h).symm

theorem prepareOperand_eq (h : T.view ≠ .struct) :
    prepareOperand m word T = .ok (T.operand word) := by
  cases T with
  | structRef => exact absurd rfl h
  | _ => rfl

theorem view_ptr (kind : PtrKind) (id : ℕ) : (ptr kind id).view.IsAddress := by
  cases kind <;> trivial

theorem operand_int (h : T.view = .int k) : T.operand word = .int k (word 0) := by
  cases T with
  | int | enum =>
    cases h
    rfl
  | ptr kind => cases kind <;> cases h
  | _ => cases h

theorem operand_address (h : T.view.IsAddress) :
    ∃ kind, T.operand word = .ptr kind (word 0) (word 1) := by
  cases T with
  | ptr kind => exact ⟨kind,rfl⟩
  | arrayRef isChar => exact ⟨_,rfl⟩
  | _ => cases h

theorem number_int (h : T.view = .int k) : T.number word = k.value (word 0) := by
  rw [number,h]
  rfl

theorem kind_address (h : T.view.IsAddress) : T.view.kind = .int64 := by
  cases hview : T.view with
  | int k =>
    rw [hview] at h
    cases h
  | _ => rfl

theorem number_address (h : T.view.IsAddress) : T.number word = (word 0).toInt := by
  rw [number,kind_address h]
  rfl

theorem ne_string (h : T.view.IsNumber) : T ≠ .string := by
  rintro rfl
  rcases h with ⟨k,h⟩ | h <;> cases h

theorem isString_operand : (T.operand word).IsString = true ↔ T = .string := by
  cases T <;> simp [operand,Operand.IsString]

theorem isPtr_operand : (T.operand word).IsPtr = true ↔ T.view.IsAddress := by
  cases T with
  | ptr kind id => exact ⟨fun _ => view_ptr kind id,fun _ => rfl⟩
  | _ => simp [operand,Operand.IsPtr,view,View.IsAddress]

theorem cmpType_string :
    cmpType (S.operand word) (T.operand word') = some .string ↔ S = .string ∨ T = .string := by
  rw [← @isString_operand S word,← @isString_operand T word',← Bool.or_eq_true,cmpType]
  by_cases h : ((S.operand word).IsString || (T.operand word').IsString) = true
  · simp [h]
  · rw [if_neg h]
    refine ⟨fun hC => ?_,fun hC => absurd hC h⟩
    split at hC
    · cases hC
    · generalize (if (S.operand word).rank > (T.operand word').rank then S.operand word
        else T.operand word') = o at hC
      cases o with
      | int k => cases k <;> cases hC
      | _ => cases hC

theorem cmpType_address (hS : S ≠ .string) (hT : T ≠ .string)
    (h : S.view.IsAddress ∨ T.view.IsAddress) :
    cmpType (S.operand word) (T.operand word') = some (.int64 false) := by
  have hnot : ¬ ((S.operand word).IsString || (T.operand word').IsString) = true := by
    simp [isString_operand,hS,hT]
  have hptr : ((S.operand word).IsPtr || (T.operand word').IsPtr) = true := by
    simpa [isPtr_operand] using h
  rw [cmpType,if_neg hnot,if_pos hptr]

/-- The integer type that two numbers are compared as. -/
def View.numberType : View → View → CmpType
  | .int k,.int l => (if k.rank > l.rank then k else l).resultType
  | _,_ => .int64 false

theorem View.numberType_cases (V W : View) :
    ∃ u, V.numberType W = .int32 u ∨ V.numberType W = .int64 u := by
  have hresult (k : IntKind) : ∃ u, k.resultType = .int32 u ∨ k.resultType = .int64 u := by
    cases k <;> simp [IntKind.resultType]
  unfold numberType
  split
  · exact hresult _
  · exact ⟨false,.inr rfl⟩

theorem View.int_of_numberType {V W : View} {u : Bool} (h : V.numberType W = .int32 u) :
    (∃ k, V = .int k) ∧ ∃ l, W = .int l := by
  cases V <;> cases W <;> simp_all [View.numberType]

theorem cmpType_number (hS : S.view.IsNumber) (hT : T.view.IsNumber) :
    cmpType (S.operand word) (T.operand word') = some (S.view.numberType T.view) := by
  by_cases haddress : S.view.IsAddress ∨ T.view.IsAddress
  · rw [cmpType_address (ne_string hS) (ne_string hT) haddress]
    cases hV : S.view with
    | int k =>
      cases hW : T.view with
      | int l =>
        rw [hV,hW] at haddress
        simp [View.IsAddress] at haddress
      | _ => rfl
    | _ => rfl
  · rw [not_or] at haddress
    obtain ⟨k,hk⟩ := hS.resolve_right haddress.1
    obtain ⟨l,hl⟩ := hT.resolve_right haddress.2
    rw [operand_int hk,operand_int hl,hk,hl]
    simp only [cmpType,Operand.IsString,Operand.IsPtr,View.numberType,Bool.or_self,
      Bool.false_eq_true,if_false]
    by_cases hrank : (Operand.int k (word 0)).rank > (Operand.int l (word' 0)).rank
    · rw [if_pos hrank,if_pos (show k.rank > l.rank from hrank)]
      rfl
    · rw [if_neg hrank,if_neg (show ¬ k.rank > l.rank from hrank)]
      rfl

/-- A type of `getArithmeticOperatorResultType`. -/
def View.IsArithmetic (V : View) : Prop := V = .fp ∨ ∃ k, V = .int k

theorem arithmeticResultType_some (h : arithmeticResultType (T.operand word) = some C) :
    T.view.IsArithmetic ∧ (T.operand word).rank < 12 := by
  cases T with
  | int k | enum _ k => exact ⟨.inr ⟨k,rfl⟩,Nat.lt_trans k.rank_lt (by decide)⟩
  | float | double => exact ⟨.inl rfl,Nat.lt_of_sub_eq_succ rfl⟩
  | _ => cases h

theorem view_of_rank (hT : T ≠ .string) (haddress : ¬ T.view.IsAddress)
    (hrank : (T.operand word).rank < 12) : T.view.IsArithmetic := by
  cases T with
  | int k | enum _ k => exact .inr ⟨k,rfl⟩
  | float | double => exact .inl rfl
  | string => exact absurd rfl hT
  | ptr kind id => exact absurd (view_ptr kind id) haddress
  | arrayRef => exact absurd trivial haddress
  | _ => simp [operand,Operand.rank] at hrank

theorem cmpType_cases (h : cmpType (S.operand word) (T.operand word') = some C) :
    (C = .string ∧ (S = .string ∨ T = .string)) ∨
      (C = .int64 false ∧ (S.view.IsAddress ∨ T.view.IsAddress)) ∨
      (S.view.IsArithmetic ∧ T.view.IsArithmetic) := by
  by_cases hstring : S = .string ∨ T = .string
  · left
    have hC := (@cmpType_string S T word word').mpr hstring
    exact ⟨Option.some.inj (h.symm.trans hC),hstring⟩
  rw [not_or] at hstring
  right
  by_cases haddress : S.view.IsAddress ∨ T.view.IsAddress
  · left
    have hC := @cmpType_address S T word word' hstring.1 hstring.2 haddress
    exact ⟨Option.some.inj (h.symm.trans hC),haddress⟩
  right
  rw [not_or] at haddress
  have hneither : ¬ ((S.operand word).IsString || (T.operand word').IsString) = true := by
    simp [isString_operand,hstring]
  have hno : ¬ ((S.operand word).IsPtr || (T.operand word').IsPtr) = true := by
    simp [isPtr_operand,haddress]
  rw [cmpType,if_neg hneither,if_neg hno] at h
  split at h
  · rename_i hrank
    obtain ⟨hS,hlt⟩ := arithmeticResultType_some h
    exact ⟨hS,view_of_rank hstring.2 haddress.2 (Nat.lt_trans hrank hlt)⟩
  · rename_i hrank
    obtain ⟨hT,hlt⟩ := arithmeticResultType_some h
    have hlt' : (S.operand word).rank < 12 := by omega
    exact ⟨view_of_rank hstring.1 haddress.1 hlt',hT⟩

theorem castOperator_int32 {u : Bool} (h : T.view = .int k) :
    castOperator m (.int32 u) (T.operand word) = .ok (.int32 (.ofInt 32 (T.number word))) := by
  rw [operand_int h,number_int h,castOperator,castInt_eq]

theorem castOperator_int64 {u : Bool} (h : T.view.IsNumber) :
    castOperator m (.int64 u) (T.operand word) = .ok (.int64 (.ofInt 64 (T.number word))) := by
  rcases h with ⟨k,h⟩ | h
  · rw [operand_int h,number_int h,castOperator,castInt_eq]
  · obtain ⟨kind,hkind⟩ := @operand_address T word h
    rw [hkind,number_address h,castOperator,BitVec.ofInt_toInt]

theorem castOperator_int64_ok {u : Bool} {c : Const}
    (h : castOperator m (.int64 u) (T.operand word) = .ok c) :
    T.view = .fp ∨ T.view.IsNumber := by
  cases T with
  | int k | enum _ k => exact .inr (.inl ⟨k,rfl⟩)
  | float | double => exact .inl rfl
  | ptr kind id => exact .inr (.inr (view_ptr kind id))
  | arrayRef => exact .inr (.inr trivial)
  | array isChar => cases isChar <;> cases h
  | _ => cases h

theorem castOperator_string_ok {c : Const} (h : castOperator m .string (T.operand word) = .ok c) :
    (T = .string ∧ ∃ s, m.read (word 0) (word 4).toNat = some s ∧ c = .string s) ∨
      T.view = .word true ∨ (∃ n, T.view = .arrayRef true n) ∨ T.view = .array true := by
  cases T with
  | string =>
    left
    refine ⟨rfl,?_⟩
    simp only [operand,castOperator,Memory.load] at h
    cases hread : m.read (word 0) (word 4).toNat with
    | none =>
      rw [hread] at h
      cases h
    | some s =>
      rw [hread] at h
      exact ⟨s,rfl,(Except.ok.inj h).symm⟩
  | ptr kind id =>
    right
    left
    cases kind <;> first | rfl | cases h
  | arrayRef isChar id size =>
    right
    right
    left
    cases isChar
    · cases h
    · exact ⟨size,rfl⟩
  | array isChar id size =>
    right
    right
    right
    cases isChar
    · cases h
    · rfl
  | _ => cases h
end VarType

variable {axl : Axl} {m : Memory} {op : RelOp} {S T : VarType} {word₁ word₂ : ℕ → Word} {r : Bool}

theorem binaryOperator_ok (h : binaryOperator axl m op S T word₁ word₂ = .ok r) :
    ∃ o₁ o₂ C c₁ c₂, prepareOperand m word₁ S = .ok o₁ ∧ prepareOperand m word₂ T = .ok o₂ ∧
      cmpType o₁ o₂ = some C ∧ castOperator m C o₁ = .ok c₁ ∧ castOperator m C o₂ = .ok c₂ ∧
      constOp axl op C c₁ c₂ = .ok r := by
  unfold binaryOperator at h
  cases h₁ : prepareOperand m word₁ S with
  | error e =>
    rw [h₁] at h
    cases h
  | ok o₁ =>
    cases h₂ : prepareOperand m word₂ T with
    | error e =>
      rw [h₁,h₂] at h
      cases h
    | ok o₂ =>
      rw [h₁,h₂] at h
      cases hC : cmpType o₁ o₂ with
      | none =>
        simp only [bind,Except.bind,hC] at h
        cases h
      | some C =>
        simp only [bind,Except.bind,hC] at h
        cases hc₁ : castOperator m C o₁ with
        | error e =>
          rw [hc₁] at h
          cases h
        | ok c₁ =>
          cases hc₂ : castOperator m C o₂ with
          | error e =>
            rw [hc₁,hc₂] at h
            cases h
          | ok c₂ =>
            rw [hc₁,hc₂] at h
            exact ⟨o₁,o₂,C,c₁,c₂,rfl,rfl,hC,hc₁,hc₂,h⟩

theorem binaryOperator_of {o₁ o₂ : Operand} {C : CmpType} {c₁ c₂ : Const}
    (h₁ : prepareOperand m word₁ S = .ok o₁) (h₂ : prepareOperand m word₂ T = .ok o₂)
    (hC : cmpType o₁ o₂ = some C) (hc₁ : castOperator m C o₁ = .ok c₁)
    (hc₂ : castOperator m C o₂ = .ok c₂) :
    binaryOperator axl m op S T word₁ word₂ = constOp axl op C c₁ c₂ := by
  simp [binaryOperator,h₁,h₂,hC,hc₁,hc₂,bind,Except.bind]

/-- The comparison of two integers that have been cast. -/
def cmpNumber (op : RelOp) (C : CmpType) (x y : ℤ) : Bool :=
  match C with
  | .int32 isUnsigned => cmpInt isUnsigned op (BitVec.ofInt 32 x) (BitVec.ofInt 32 y)
  | .int64 isUnsigned => cmpInt isUnsigned op (BitVec.ofInt 64 x) (BitVec.ofInt 64 y)
  | _ => false

theorem IsNumber.ne_struct {V : VarType.View} (h : V.IsNumber) : V ≠ .struct := by
  rintro rfl
  rcases h with ⟨k,h⟩ | h <;> cases h

theorem binaryOperator_number (hS : S.view.IsNumber) (hT : T.view.IsNumber) :
    binaryOperator axl m op S T word₁ word₂ =
      .ok (cmpNumber op (S.view.numberType T.view) (S.number word₁) (T.number word₂)) := by
  have hC := @VarType.cmpType_number S T word₁ word₂ hS hT
  have h₁ := @VarType.prepareOperand_eq m S word₁ (IsNumber.ne_struct hS)
  have h₂ := @VarType.prepareOperand_eq m T word₂ (IsNumber.ne_struct hT)
  obtain ⟨u,hnumber | hnumber⟩ := S.view.numberType_cases T.view
  · rw [hnumber] at hC ⊢
    obtain ⟨⟨k,hk⟩,⟨l,hl⟩⟩ := VarType.View.int_of_numberType hnumber
    exact binaryOperator_of h₁ h₂ hC (VarType.castOperator_int32 hk) (VarType.castOperator_int32 hl)
  · rw [hnumber] at hC ⊢
    exact binaryOperator_of h₁ h₂ hC (VarType.castOperator_int64 hS) (VarType.castOperator_int64 hT)

namespace Variant

variable {a b : Variant}

theorem fallback_ok (h : a.fallback m .eq S T b = .ok true) :
    S = T ∧ ∃ bytes, a.image m S = .ok bytes ∧ b.image m S = .ok bytes := by
  unfold fallback at h
  split at h
  · rename_i hcond
    refine ⟨hcond.2,?_⟩
    cases h₁ : a.image m S with
    | error e =>
      rw [h₁] at h
      cases h
    | ok bytes₁ =>
      cases h₂ : b.image m S with
      | error e =>
        rw [h₁,h₂] at h
        cases h
      | ok bytes₂ =>
        rw [h₁,h₂] at h
        simp only [bind,Except.bind,Except.ok.injEq,beq_self_eq_true,beq_true,beq_iff_eq] at h
        exact ⟨bytes₁,rfl,by rw [h]⟩
  · cases h

theorem relationalOperator_eq (hS : a.type.or b.type = some S) (hT : b.type.or a.type = some T) :
    relationalOperator axl m op a b =
      match binaryOperator axl m op S T a.operandWord b.operandWord with
      | .error .error => a.fallback m op S T b
      | result => result := by
  rw [relationalOperator,hS,hT] <;> rfl

theorem relationalOperator_of_ok (hS : a.type.or b.type = some S) (hT : b.type.or a.type = some T)
    (h : binaryOperator axl m op S T a.operandWord b.operandWord = .ok r) :
    relationalOperator axl m op a b = .ok r := by
  rw [relationalOperator_eq hS hT,h]

theorem relationalOperator_ok (hS : a.type.or b.type = some S) (hT : b.type.or a.type = some T)
    (h : relationalOperator axl m .eq a b = .ok true) :
    binaryOperator axl m .eq S T a.operandWord b.operandWord = .ok true ∨
      (binaryOperator axl m .eq S T a.operandWord b.operandWord = .error .error ∧ S = T ∧
        ∃ bytes, a.image m S = .ok bytes ∧ b.image m S = .ok bytes) := by
  rw [relationalOperator_eq hS hT] at h
  split at h
  · rename_i herror
    exact .inr ⟨herror,fallback_ok h⟩
  · exact .inl h

end Variant

end Jancy.Api

/-! What variants store: the numbers behind the words, the bytes behind the values, and what must be
there for a variant to be read. -/
namespace Jancy.Api

variable {m : Memory} {T : VarType}

namespace IntKind

/-- The kinds with negative values. -/
def HasNegative (k : IntKind) : Prop := k.signExtends = true ∧ ¬ k.IsBool

instance (k : IntKind) : Decidable k.HasNegative := inferInstanceAs (Decidable (_ ∧ _))

/-- A negative number of the first kind is equal, once both are promoted, to a number of the second
kind, which is wider. -/
def SpillsInto (k l : IntKind) : Prop :=
  k.HasNegative ∧ k.size < l.size ∧ (l.HasNegative ∨ 4 ≤ l.size)

instance (k l : IntKind) : Decidable (k.SpillsInto l) := inferInstanceAs (Decidable (_ ∧ _ ∧ _))

theorem size_cases (k : IntKind) : k.size = 1 ∨ k.size = 2 ∨ k.size = 4 ∨ k.size = 8 := by
  cases k <;> decide

theorem IsBool.size_eq {k : IntKind} (h : k.IsBool) : k.size = 1 := by
  rcases h with rfl | rfl <;> rfl

/-- A number of an integer kind, stored with nothing behind it. -/
structure Stored (k : IntKind) (w : Word) : Prop where
  lt : w.toNat < 2 ^ (8 * k.size)
  bool : k.IsBool → w.toNat ≤ 1

variable {k l : IntKind} {w w' : Word} {n : ℕ}

theorem Stored.value_cases (h : k.Stored w) :
    k.value w = w.toNat ∨
      (k.HasNegative ∧ 2 ^ (8 * k.size) ≤ 2 * w.toNat ∧ k.value w = w.toNat - 2 ^ (8 * k.size)) := by
  have hvalue := k.value_cases w
  rw [Nat.mod_eq_of_lt h.lt] at hvalue
  rcases hvalue with hnat | ⟨hsigned,hlarge,hneg⟩
  · exact .inl hnat
  · refine .inr ⟨⟨hsigned,fun hbool => ?_⟩,hlarge,hneg⟩
    have hone := h.bool hbool
    rw [hbool.size_eq] at hlarge
    omega

theorem stored_zero (k : IntKind) : k.Stored 0 := ⟨by simp,fun _ => by decide⟩

theorem Stored.eq_of_modEq (hw : k.Stored w) (hw' : l.Stored w') (hn : n = 32 ∨ n = 64)
    (hk : 8 * k.size ≤ n) (hl : 8 * l.size ≤ n) (hkl : ¬ k.SpillsInto l) (hlk : ¬ l.SpillsInto k)
    (h : k.value w ≡ l.value w' [ZMOD 2 ^ n]) : w = w' := by
  apply BitVec.eq_of_toNat_eq
  have hlt := hw.lt
  have hlt' := hw'.lt
  have hvalue := hw.value_cases
  have hvalue' := hw'.value_cases
  unfold SpillsInto at hkl hlk
  unfold Int.ModEq at h
  by_cases hneg : k.HasNegative <;> by_cases hneg' : l.HasNegative <;>
    simp only [hneg,hneg',true_and,false_and,true_or,false_or,and_true,or_false,not_false_iff]
      at hkl hlk hvalue hvalue' <;>
    rcases k.size_cases with hs | hs | hs | hs <;> rcases l.size_cases with hs' | hs' | hs' | hs' <;>
    rcases hn with rfl | rfl <;> simp only [hs,hs'] at * <;> omega

end IntKind

theorem Memory.load_ok {p : Word} {n : ℕ} {bytes : List Byte} :
    m.load p n = .ok bytes ↔ m.read p n = some bytes := by
  unfold Memory.load
  cases m.read p n <;> simp

theorem VarType.size_of_view {k : IntKind} (h : T.view = .int k) : T.size = k.size := by
  cases T with
  | int | enum =>
    cases h
    rfl
  | ptr kind => cases kind <;> cases h
  | _ => cases h

namespace Variant

def size (v : Variant) : ℕ := v.type.elim 0 VarType.size

/-- Where the bytes are that a variant refers to. -/
def pointee (v : Variant) : Option (Word × ℕ) :=
  match v.type with
  | some .string => some (v.word 0,(v.word 4).toNat)
  | some (.arrayRef _ _ size) | some (.structRef _ size) => some (v.word 0,size)
  | _ => none

/-- A bool is 0 or 1, and what a string or a reference refers to is there. -/
structure Valid (m : Memory) (v : Variant) : Prop where
  bool : ∀ T k, v.type = some T → T.view = .int k → k.IsBool → (v.word 0).setWidth 8 ≤ (1 : Byte)
  pointee : ∀ p n, v.pointee = some (p,n) → (m.read p n).isSome

/-- The bytes behind the value are zero. -/
def Padded (v : Variant) : Prop :=
  ∀ i, v.word i = ((v.word i).setWidth (8 * (v.size - 8 * i))).setWidth 64

variable {v a b : Variant} {k : IntKind}

theorem operandWord_some (h : v.type = some T) : v.operandWord = v.word := by
  rw [operandWord,if_pos (by rw [h]; rfl)]

theorem operandWord_none (h : v.type = none) : v.operandWord = fun _ => 0 := by
  rw [operandWord,h]
  rfl

theorem size_some (h : v.type = some T) : v.size = T.size := by
  rw [size,h]
  rfl

theorem Padded.word_lt (h : v.Padded) :
    (v.word 0).toNat < 2 ^ (8 * v.size) := by
  have hword := congrArg BitVec.toNat (h 0)
  rw [BitVec.toNat_setWidth,BitVec.toNat_setWidth] at hword
  have hlt := Nat.mod_lt (v.word 0).toNat (Nat.two_pow_pos (8 * v.size))
  have hle := Nat.mod_le ((v.word 0).toNat % 2 ^ (8 * v.size)) (2 ^ 64)
  rw [hword]
  exact Nat.lt_of_le_of_lt hle hlt

theorem Padded.word_null (h : v.Padded) (hv : v.type = none) : v.word 0 = 0 := by
  have hsize : v.size = 0 := by rw [size,hv]; rfl
  have hlt := h.word_lt
  rw [hsize] at hlt
  exact BitVec.eq_of_toNat_eq (by simpa using hlt)

theorem Valid.stored (h : v.Valid m) (hT : v.type = some T) (hk : T.view = .int k)
    (hspare : v.Padded ∨ k.size = 8) : k.Stored (v.word 0) := by
  have hsize : v.size = k.size := (size_some hT).trans (VarType.size_of_view hk)
  have hlt : (v.word 0).toNat < 2 ^ (8 * k.size) := by
    rcases hspare with hpad | hsize8
    · exact hsize ▸ hpad.word_lt
    · rw [hsize8]
      exact (v.word 0).isLt
  refine ⟨hlt,fun hbool => ?_⟩
  have hone := h.bool T k hT hk hbool
  rw [hbool.size_eq] at hlt
  rw [BitVec.le_def,BitVec.toNat_setWidth] at hone
  have hone' : (1 : Byte).toNat = 1 := rfl
  omega

theorem getLsbD_of_bytes {word word' : ℕ → Word} {n i t : ℕ}
    (h : bytesOf word n = bytesOf word' n) (ht : t < 64) (hi : 8 * i + t / 8 < n) :
    (word i).getLsbD t = (word' i).getLsbD t := by
  have hbyte := congrArg (fun bytes : List Byte => (bytes[8 * i + t / 8]?).map (·.getLsbD (t % 8))) h
  have hdiv : (8 * i + t / 8) / 8 = i := by omega
  have hmod : (8 * i + t / 8) % 8 = t / 8 := by omega
  have hbit : 8 * (t / 8) + t % 8 = t := by omega
  have ht8 : t % 8 < 8 := Nat.mod_lt t (by decide)
  simpa [bytesOf,hi,hdiv,hmod,hbit,ht8,BitVec.getLsbD_extractLsb'] using hbyte

theorem word_of_bytes {word word' : ℕ → Word} {n i : ℕ} (h : bytesOf word n = bytesOf word' n)
    (hi : 8 * i + 8 ≤ n) : word i = word' i := by
  apply BitVec.eq_of_getLsbD_eq
  intro t ht
  exact getLsbD_of_bytes h ht (by omega)

theorem Padded.word_of_bytes (ha : a.Padded) (hb : b.Padded)
    {n : ℕ} (hna : a.size ≤ n) (hnb : b.size ≤ n) (h : bytesOf a.word n = bytesOf b.word n) :
    a.word 0 = b.word 0 := by
  apply BitVec.eq_of_getLsbD_eq
  intro t ht
  by_cases hlt : t / 8 < n
  · exact getLsbD_of_bytes h ht (by omega)
  · have hzero : ∀ c : Variant, c.Padded → c.size ≤ n → (c.word 0).getLsbD t = false := by
      intro c hc hn
      apply Nat.testBit_lt_two_pow
      apply Nat.lt_of_lt_of_le hc.word_lt
      exact Nat.pow_le_pow_right (by decide) (by omega)
    rw [hzero a ha hna,hzero b hb hnb]

end Variant

end Jancy.Api
