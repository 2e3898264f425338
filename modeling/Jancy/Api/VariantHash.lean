import Jancy.Api.VariantCompare

/-! Equal variants and their hashes: for which types equality implies that the hashes are equal. -/
namespace Jancy.Api

/-- What is documented of the functions of `axl`. -/
structure Axl.Documented (axl : Axl) : Prop where
  djb2_nil : axl.djb2 [] = 5381
  djb2_append : ∀ bytes c, axl.djb2 (bytes ++ [c]) = axl.djb2 bytes * 33 + c.setWidth 64
  isEqual_iff : ∀ x y, axl.isEqual x y = true ↔ x = y
  cmp_self : ∀ x, axl.cmp x x = 0
  cmp_swap : ∀ x y, axl.cmp x y < 0 ↔ axl.cmp y x > 0
  cmp_eq : ∀ x y, axl.cmp x y = 0 → x = y
  cmp_trans : ∀ x y z, axl.cmp x y < 0 → axl.cmp y z < 0 → axl.cmp x z < 0

/-- The claim for two types: equal variants have equal hashes. `zeroed` restricts it to variants with
nothing behind their values. -/
def EqualsHashAlike (axl : Axl) (zeroed : Bool) (S T : Option VarType) : Prop :=
  ∀ (m : Memory) (a b : Variant), a.type = S → b.type = T → a.Valid m → b.Valid m →
    (zeroed = true → a.Padded ∧ b.Padded) →
    Variant.relationalOperator axl m .eq a b = .ok true → a.hash axl m = b.hash axl m

namespace VarType

/-- Equal values of the two types are stored alike, as far as the hash sees. -/
def View.Agrees : View → View → Prop
  | .int k,.int l => ¬ k.SpillsInto l ∧ ¬ l.SpillsInto k
  | .int k,.word _ | .word _,.int k => ¬ k.SpillsInto .int64
  | .word _,.word _ => True
  | .arrayRef _ n,.arrayRef _ n' => n = n'
  | .string,.string => True
  | .string,.word isChar | .word isChar,.string => isChar = false
  | .string,.arrayRef isChar _ | .arrayRef isChar _,.string => isChar = false
  | .string,.array isChar | .array isChar,.string => isChar = false
  | .string,_ | _,.string => True
  | .array _,_ | _,.array _ => True
  | .struct,_ | _,.struct => True
  | _,_ => False

/-- The hash sees nothing behind the values that the comparison does not see. -/
def Tight (S T : VarType) : Prop :=
  match S.view,T.view with
  | .int k,.int l => k.size = 8 ∧ l.size = 8
  | .int k,.word _ | .word _,.int k => k.size = 8
  | .array _,.array _ | .struct,.struct => S = T → 8 ≤ S.size
  | _,_ => True

/-- A value that is equal to null has the hash of null. -/
def AgreesWithNull (zeroed : Bool) (T : VarType) : Prop :=
  match T.view with
  | .int k => zeroed = true ∨ k.size = 8
  | .word _ | .arrayRef .. => True
  | .array _ => zeroed = true ∧ T.size ≤ 8
  | .struct => zeroed = true ∧ (T.size ≤ 8 ∨ ∃ id size, T = .structRef id size)
  | .fp | .fat | .string => False

end VarType

def HashesAgree (zeroed : Bool) : Option VarType → Option VarType → Prop
  | none,none => True
  | none,some T | some T,none => T.AgreesWithNull zeroed
  | some S,some T => S.view.Agrees T.view ∧ (zeroed = true ∨ S.Tight T)

variable {axl : Axl} {m : Memory} {S T : VarType} {k l : IntKind} {zeroed : Bool}

namespace Variant

variable {v a b : Variant}

theorem hash_null (h : v.type = none) : v.hash axl m = some 0 := by
  rw [hash,h]

theorem hash_small (hT : v.type = some T) (hsize : T.size ≤ 8) : v.hash axl m = some (v.word 0) := by
  simp only [hash,hT]
  rw [if_pos hsize]

theorem hash_int (hT : v.type = some T) (hk : T.view = .int k) :
    v.hash axl m = some (v.word 0) := by
  apply hash_small hT
  rw [VarType.size_of_view hk]
  cases k <;> decide

theorem hash_word {isChar : Bool} (hT : v.type = some T) (hview : T.view = .word isChar) :
    v.hash axl m = some (v.word 0) := by
  simp only [hash,hT]
  cases T with
  | ptr kind id => cases kind <;> first | rfl | cases hview
  | _ => cases hview

theorem hash_string (hT : v.type = some .string) :
    v.hash axl m = (m.read (v.word 0) (v.word 4).toNat).map axl.djb2 := by
  simp [hash,hT,VarType.size]

theorem hash_arrayRef {isChar : Bool} {n : ℕ} (hT : v.type = some T)
    (hview : T.view = .arrayRef isChar n) : v.hash axl m = (m.read (v.word 0) n).map axl.djb2 := by
  simp only [hash,hT]
  cases T with
  | arrayRef => cases hview; rfl
  | ptr kind => cases kind <;> cases hview
  | _ => cases hview

theorem hash_large (hT : v.type = some T) (hsize : 8 < T.size)
    (hview : T.view = .fat ∨ (∃ c, T.view = .array c) ∨ ∃ id size, T = .struct id size) :
    v.hash axl m = some (axl.djb2 (bytesOf v.word T.size)) := by
  simp only [hash,hT]
  rw [if_neg (by omega)]
  cases T with
  | struct | array => rfl
  | ptr kind => cases kind <;> simp_all [VarType.view]
  | _ => simp [VarType.view] at hview

theorem hash_structRef {id : ℕ} {size : LargeSize} (hT : v.type = some (.structRef id size)) :
    v.hash axl m = (m.read (v.word 0) size).map axl.djb2 := by
  simp [hash,hT,VarType.size]

theorem hash_of_image {bytes : List Byte} (ha : a.type = some T) (hb : b.type = some T)
    (hspare : (a.Padded ∧ b.Padded) ∨ 8 ≤ T.size) (hia : a.image m T = .ok bytes)
    (hib : b.image m T = .ok bytes) : a.hash axl m = b.hash axl m := by
  have hword (h : bytesOf a.word T.size = bytesOf b.word T.size) : a.word 0 = b.word 0 := by
    rcases hspare with ⟨hpa,hpb⟩ | hsize
    · exact hpa.word_of_bytes hpb (size_some ha).le (size_some hb).le h
    · exact Variant.word_of_bytes h hsize
  cases T with
  | arrayRef isChar id size =>
    rw [hash_arrayRef ha rfl,hash_arrayRef hb rfl,Memory.load_ok.mp hia,Memory.load_ok.mp hib]
  | structRef id size =>
    rw [hash_structRef ha,hash_structRef hb,Memory.load_ok.mp hia,Memory.load_ok.mp hib]
  | string =>
    have hbytes := Except.ok.inj (hia.trans hib.symm)
    rw [hash_string ha,hash_string hb,Variant.word_of_bytes (i := 0) hbytes (by decide),
      Variant.word_of_bytes (i := 4) hbytes (by decide)]
  | array | struct =>
    have hbytes := Except.ok.inj (hia.trans hib.symm)
    rcases Nat.lt_or_ge 8 (VarType.size _) with hsize | hsize
    · rw [hash_large ha hsize (by simp [VarType.view]),hash_large hb hsize (by simp [VarType.view]),hbytes]
    · rw [hash_small ha hsize,hash_small hb hsize,hword hbytes]
  | ptr kind id =>
    have hbytes := Except.ok.inj (hia.trans hib.symm)
    cases hview : (VarType.ptr kind id).view with
    | word => rw [hash_word ha hview,hash_word hb hview,hword hbytes]
    | fat =>
      have hsize : 8 < (VarType.ptr kind id).size := by
        cases kind <;> simp_all [VarType.size,PtrKind.size,VarType.view]
      rw [hash_large ha hsize (.inl hview),hash_large hb hsize (.inl hview),hbytes]
    | _ => cases kind <;> cases hview
  | int | enum => rw [hash_int ha rfl,hash_int hb rfl,hword (Except.ok.inj (hia.trans hib.symm))]
  | float | double =>
    have hbytes := Except.ok.inj (hia.trans hib.symm)
    rw [hash_small ha (by decide),hash_small hb (by decide),hword hbytes]

end Variant
open VarType

namespace VarType.View

variable {V W : View} {x y : ℤ}

theorem size_of_numberType {u : Bool} (h : V.numberType W = .int32 u) :
    V.kind.size ≤ 4 ∧ W.kind.size ≤ 4 := by
  obtain ⟨⟨k,rfl⟩,l,rfl⟩ := int_of_numberType h
  revert h
  cases u <;> cases k <;> cases l <;> decide

theorem modEq_of_cmpNumber (h : cmpNumber .eq (V.numberType W) x y = true) :
    ∃ n, (n = 32 ∨ n = 64) ∧ 8 * V.kind.size ≤ n ∧ 8 * W.kind.size ≤ n ∧ x ≡ y [ZMOD 2 ^ n] := by
  obtain ⟨u,hnumber | hnumber⟩ := V.numberType_cases W
  · obtain ⟨hV,hW⟩ := size_of_numberType hnumber
    rw [hnumber] at h
    refine ⟨32,.inl rfl,by omega,by omega,ofInt_eq_iff.mp ?_⟩
    simpa [cmpNumber,cmpInt,RelOp.apply] using h
  · have hV : V.kind.size ≤ 8 := by cases V.kind <;> decide
    have hW : W.kind.size ≤ 8 := by cases W.kind <;> decide
    rw [hnumber] at h
    refine ⟨64,.inr rfl,by omega,by omega,ofInt_eq_iff.mp ?_⟩
    simpa [cmpNumber,cmpInt,RelOp.apply] using h

theorem not_spillsInto (h : l.size ≤ k.size) : ¬ k.SpillsInto l := fun hspills => by
  have hlt := hspills.2.1
  omega

theorem not_int64_spillsInto (l : IntKind) : ¬ IntKind.int64.SpillsInto l :=
  not_spillsInto (by cases l <;> decide)

theorem Agrees.number_cases (h : V.Agrees W) (hV : V.IsNumber) (hW : W.IsNumber) :
    (((∃ k, V = .int k) ∨ ∃ c, V = .word c) ∧ ((∃ l, W = .int l) ∨ ∃ c, W = .word c)) ∨
      ∃ c c' n, V = .arrayRef c n ∧ W = .arrayRef c' n := by
  cases V <;> cases W <;> simp_all [Agrees,IsNumber,IsAddress]

theorem Agrees.not_spillsInto (h : V.Agrees W) (hV : V.IsNumber) (hW : W.IsNumber) :
    ¬ V.kind.SpillsInto W.kind ∧ ¬ W.kind.SpillsInto V.kind := by
  rcases h.number_cases hV hW with ⟨⟨k,rfl⟩ | ⟨c,rfl⟩,⟨l,rfl⟩ | ⟨c',rfl⟩⟩ | ⟨c,c',n,rfl,rfl⟩
  · exact h
  · exact ⟨h,not_int64_spillsInto k⟩
  · exact ⟨not_int64_spillsInto l,h⟩
  · exact ⟨not_int64_spillsInto _,not_int64_spillsInto _⟩
  · exact ⟨not_int64_spillsInto _,not_int64_spillsInto _⟩

end VarType.View

theorem VarType.Tight.spare (h : S.Tight T) (hS : S.view.IsNumber) (hT : T.view.IsNumber)
    (hagree : S.view.Agrees T.view) : S.view.kind.size = 8 ∧ T.view.kind.size = 8 := by
  unfold VarType.Tight at h
  rcases hagree.number_cases hS hT with ⟨⟨k,hk⟩ | ⟨c,hc⟩,⟨l,hl⟩ | ⟨c',hc'⟩⟩ | ⟨c,c',n,hc,hc'⟩
  · rw [hk,hl] at h ⊢
    exact h
  · rw [hk,hc'] at h ⊢
    exact ⟨h,rfl⟩
  · rw [hc,hl] at h ⊢
    exact ⟨rfl,h⟩
  · rw [hc,hc']
    exact ⟨rfl,rfl⟩
  · rw [hc,hc']
    exact ⟨rfl,rfl⟩

theorem VarType.Tight.size_self (h : S.Tight S) (hagree : S.view.Agrees S.view) : 8 ≤ S.size := by
  cases S with
  | int | enum => exact h.1.ge
  | float | double => cases hagree
  | array | struct => exact h rfl
  | ptr kind => cases kind <;> exact Nat.le_of_ble_eq_true rfl
  | string | arrayRef | structRef => exact Nat.le_of_ble_eq_true rfl

theorem VarType.string_of_agrees {w : ℕ → Word} {c : Const} (hagree : View.string.Agrees T.view)
    (h : castOperator m .string (T.operand w) = .ok c) :
    T = .string ∧ ∃ s, m.read (w 0) (w 4).toNat = some s ∧ c = .string s := by
  rcases castOperator_string_ok h with hstring | hview | ⟨n,hview⟩ | hview
  · exact hstring
  · rw [hview] at hagree
    cases hagree
  · rw [hview] at hagree
    cases hagree
  · rw [hview] at hagree
    cases hagree

theorem VarType.View.Agrees.isNumber {V W : View} (h : V.Agrees W) (hV : V = .fp ∨ V.IsNumber)
    (hW : W = .fp ∨ W.IsNumber) : V.IsNumber ∧ W.IsNumber := by
  rcases hV with rfl | hV
  · rcases hW with rfl | ⟨l,rfl⟩ | hW
    · cases h
    · cases h
    · cases W <;> first | exact False.elim h | exact False.elim hW
  · rcases hW with rfl | hW
    · rcases hV with ⟨k,rfl⟩ | hV
      · cases h
      · cases V <;> first | exact False.elim h | exact False.elim hV
    · exact ⟨hV,hW⟩

theorem VarType.View.Agrees.symm {V W : View} (h : V.Agrees W) : W.Agrees V := by
  cases V <;> cases W <;> simp_all [Agrees]

namespace Variant

variable {v a b : Variant}

theorem Valid.stored_number (h : v.Valid m) (hT : v.type = some T) (hview : T.view.IsNumber)
    (hspare : v.Padded ∨ T.view.kind.size = 8) : T.view.kind.Stored (v.word 0) := by
  rcases hview with ⟨k,hk⟩ | haddress
  · rw [hk] at hspare ⊢
    exact h.stored hT hk hspare
  · rw [kind_address haddress]
    exact ⟨(v.word 0).isLt,fun hbool => absurd hbool (by decide)⟩

theorem hash_number (hT : v.type = some T) (h : (∃ k, T.view = .int k) ∨ ∃ c, T.view = .word c) :
    v.hash axl m = some (v.word 0) := by
  rcases h with ⟨k,hk⟩ | ⟨c,hc⟩
  · exact hash_int hT hk
  · exact hash_word hT hc

theorem word_eq_of_number {w w' : Word} (hw : S.view.kind.Stored w) (hw' : T.view.kind.Stored w')
    (hST : ¬ S.view.kind.SpillsInto T.view.kind) (hTS : ¬ T.view.kind.SpillsInto S.view.kind)
    (h : cmpNumber .eq (S.view.numberType T.view) (S.view.kind.value w) (T.view.kind.value w') = true) :
    w = w' := by
  obtain ⟨n,hn,hk,hl,hmod⟩ := View.modEq_of_cmpNumber h
  exact hw.eq_of_modEq hw' hn hk hl hST hTS hmod

theorem relationalOperator_number {op : RelOp} (ha : a.type = some S) (hb : b.type = some T)
    (hS : S.view.IsNumber) (hT : T.view.IsNumber) :
    relationalOperator axl m op a b =
      .ok (cmpNumber op (S.view.numberType T.view) (S.number a.word) (T.number b.word)) := by
  apply relationalOperator_of_ok (by rw [ha]; rfl) (by rw [hb]; rfl)
  rw [operandWord_some ha,operandWord_some hb]
  exact binaryOperator_number hS hT
  
theorem hash_eq_number (ha : a.type = some S) (hb : b.type = some T) (hva : a.Valid m)
    (hvb : b.Valid m) (hpad : zeroed = true → a.Padded ∧ b.Padded) (hS : S.view.IsNumber)
    (hT : T.view.IsNumber) (hagree : S.view.Agrees T.view) (htight : zeroed = true ∨ S.Tight T)
    (heq : relationalOperator axl m .eq a b = .ok true) : a.hash axl m = b.hash axl m := by
  have hspills := hagree.not_spillsInto hS hT
  have hspare : (a.Padded ∨ S.view.kind.size = 8) ∧ (b.Padded ∨ T.view.kind.size = 8) := by
    rcases htight with hzeroed | htight
    · exact ⟨.inl (hpad hzeroed).1,.inl (hpad hzeroed).2⟩
    · obtain ⟨hs,ht⟩ := htight.spare hS hT hagree
      exact ⟨.inr hs,.inr ht⟩
  rw [relationalOperator_number ha hb hS hT] at heq
  have hword : a.word 0 = b.word 0 :=
    word_eq_of_number (hva.stored_number ha hS hspare.1) (hvb.stored_number hb hT hspare.2)
      hspills.1 hspills.2 (Except.ok.inj heq)
  rcases hagree.number_cases hS hT with ⟨hV,hW⟩ | ⟨c,c',n,hc,hc'⟩
  · rw [hash_number ha hV,hash_number hb hW,hword]
  · rw [hash_arrayRef ha hc,hash_arrayRef hb hc',hword]

theorem hash_eq_string (hdoc : axl.Documented) (ha : a.type = some S) (hb : b.type = some T)
    (hstring : S = .string ∨ T = .string) (hagree : S.view.Agrees T.view) {c₁ c₂ : Const}
    (hc₁ : castOperator m .string (S.operand a.word) = .ok c₁)
    (hc₂ : castOperator m .string (T.operand b.word) = .ok c₂)
    (hop : constOp axl .eq .string c₁ c₂ = .ok true) : a.hash axl m = b.hash axl m := by
  have hboth : View.string.Agrees S.view ∧ View.string.Agrees T.view := by
    rcases hstring with rfl | rfl
    · exact ⟨trivial,hagree⟩
    · exact ⟨hagree.symm,trivial⟩
  obtain ⟨rfl,s₁,hread₁,rfl⟩ := VarType.string_of_agrees hboth.1 hc₁
  obtain ⟨rfl,s₂,hread₂,rfl⟩ := VarType.string_of_agrees hboth.2 hc₂
  have heq : s₁ = s₂ := (hdoc.isEqual_iff s₁ s₂).mp (Except.ok.inj hop)
  rw [hash_string ha,hash_string hb,hread₁,hread₂,heq]

theorem hash_eq_typed (hdoc : axl.Documented) (ha : a.type = some S) (hb : b.type = some T)
    (hva : a.Valid m) (hvb : b.Valid m) (hpad : zeroed = true → a.Padded ∧ b.Padded)
    (hagree : S.view.Agrees T.view) (htight : zeroed = true ∨ S.Tight T)
    (heq : relationalOperator axl m .eq a b = .ok true) : a.hash axl m = b.hash axl m := by
  by_cases hnumbers : S.view.IsNumber ∧ T.view.IsNumber
  · exact hash_eq_number ha hb hva hvb hpad hnumbers.1 hnumbers.2 hagree htight heq
  rcases relationalOperator_ok (by rw [ha]; rfl) (by rw [hb]; rfl) heq with
    hbin | ⟨-,rfl,bytes,hia,hib⟩
  · obtain ⟨o₁,o₂,C,c₁,c₂,h₁,h₂,hC,hc₁,hc₂,hop⟩ := binaryOperator_ok hbin
    obtain rfl := prepareOperand_ok h₁
    obtain rfl := prepareOperand_ok h₂
    rw [operandWord_some ha] at hC hc₁
    rw [operandWord_some hb] at hC hc₂
    rcases cmpType_cases hC with ⟨rfl,hstring⟩ | ⟨rfl,haddress⟩ | ⟨hS,hT⟩
    · exact hash_eq_string hdoc ha hb hstring hagree hc₁ hc₂ hop
    · have hV := castOperator_int64_ok hc₁
      have hW := castOperator_int64_ok hc₂
      exact absurd (hagree.isNumber hV hW) hnumbers
    · have hV : S.view = .fp ∨ S.view.IsNumber := hS.imp_right .inl
      have hW : T.view = .fp ∨ T.view.IsNumber := hT.imp_right .inl
      exact absurd (hagree.isNumber hV hW) hnumbers
  · have hspare : (a.Padded ∧ b.Padded) ∨ 8 ≤ S.size :=
      htight.imp hpad fun h => h.size_self hagree
    exact hash_of_image ha hb hspare hia hib

end Variant

theorem Memory.read_null {n : ℕ} (hn : 0 < n) : m.read 0 n = none := by
  obtain ⟨n,rfl⟩ : ∃ j, n = j + 1 := ⟨n - 1,by omega⟩
  unfold Memory.read
  rw [List.range_succ_eq_map]
  have hnull : m.byte 0#64 = none := m.byte_null
  simp [hnull]

namespace Variant

variable {a b : Variant}

theorem equal_cases (hS : a.type.or b.type = some T) (hT : b.type.or a.type = some T)
    (hview : T.view.IsNumber ∨ (∃ c, T.view = .array c) ∨ T.view = .struct)
    (heq : relationalOperator axl m .eq a b = .ok true) :
    (T.view.IsNumber ∧ cmpNumber .eq (T.view.numberType T.view) (T.number a.operandWord)
        (T.number b.operandWord) = true) ∨
      (¬ T.view.IsNumber ∧ ∃ bytes, a.image m T = .ok bytes ∧ b.image m T = .ok bytes) := by
  by_cases hnumber : T.view.IsNumber
  · left
    have hbin := @binaryOperator_number axl m .eq T T a.operandWord b.operandWord hnumber hnumber
    rw [relationalOperator_of_ok hS hT hbin] at heq
    exact ⟨hnumber,Except.ok.inj heq⟩
  · right
    have hother := hview.resolve_left hnumber
    refine ⟨hnumber,?_⟩
    rcases relationalOperator_ok hS hT heq with hbin | ⟨-,-,himage⟩
    · obtain ⟨o₁,o₂,C,c₁,c₂,h₁,h₂,hC,-⟩ := binaryOperator_ok hbin
      obtain rfl := prepareOperand_ok h₁
      obtain rfl := prepareOperand_ok h₂
      rcases cmpType_cases hC with ⟨-,rfl | rfl⟩ | ⟨-,h | h⟩ | ⟨hfp | ⟨k,hk⟩,-⟩
      · simp [view] at hother
      · simp [view] at hother
      · exact absurd (.inr h) hnumber
      · exact absurd (.inr h) hnumber
      · rw [hfp] at hother
        simp at hother
      · exact absurd (.inl ⟨k,hk⟩) hnumber
    · exact himage

theorem hash_eq_null (ha : a.type = some T) (hb : b.type = none) (hva : a.Valid m)
    (hpad : zeroed = true → a.Padded ∧ b.Padded) (hagree : T.AgreesWithNull zeroed)
    (heq : relationalOperator axl m .eq a b = .ok true ∨
      relationalOperator axl m .eq b a = .ok true) : a.hash axl m = some 0 := by
  have hab : a.type.or b.type = some T := by rw [ha]; rfl
  have hba : b.type.or a.type = some T := by rw [ha,hb]; rfl
  have hview : T.view.IsNumber ∨ (∃ c, T.view = .array c) ∨ T.view = .struct := by
    unfold AgreesWithNull at hagree
    cases hV : T.view <;> simp_all [View.IsNumber,View.IsAddress]
  have hcases : (T.view.IsNumber ∧ ∃ x y : Word, cmpNumber .eq (T.view.numberType T.view)
        (T.view.kind.value x) (T.view.kind.value y) = true ∧
        ((x = a.word 0 ∧ y = 0) ∨ (x = 0 ∧ y = a.word 0))) ∨
      (¬ T.view.IsNumber ∧ ∃ bytes, a.image m T = .ok bytes ∧ b.image m T = .ok bytes) := by
    rcases heq with heq | heq
    · apply (equal_cases hab hba hview heq).imp_left
      rintro ⟨hnumber,hcmp⟩
      rw [operandWord_some ha,operandWord_none hb] at hcmp
      exact ⟨hnumber,_,_,hcmp,.inl ⟨rfl,rfl⟩⟩
    · rcases equal_cases hba hab hview heq with ⟨hnumber,hcmp⟩ | ⟨hnumber,bytes,hib,hia⟩
      · rw [operandWord_some ha,operandWord_none hb] at hcmp
        exact .inl ⟨hnumber,_,_,hcmp,.inr ⟨rfl,rfl⟩⟩
      · exact .inr ⟨hnumber,bytes,hia,hib⟩
  rcases hcases with ⟨hnumber,x,y,hcmp,hxy⟩ | ⟨hnumber,bytes,hia,hib⟩
  · have hspare : a.Padded ∨ T.view.kind.size = 8 := by
      rcases hnumber with ⟨k,hk⟩ | haddress
      · unfold AgreesWithNull at hagree
        rw [hk] at hagree ⊢
        exact hagree.imp (fun hz => (hpad hz).1) id
      · rw [kind_address haddress]
        exact .inr rfl
    have hstored := hva.stored_number ha hnumber hspare
    have hself := View.not_spillsInto (Nat.le_refl T.view.kind.size)
    have hzero : a.word 0 = 0 := by
      rcases hxy with ⟨rfl,rfl⟩ | ⟨rfl,rfl⟩
      · exact word_eq_of_number hstored (IntKind.stored_zero _) hself hself hcmp
      · exact (word_eq_of_number (IntKind.stored_zero _) hstored hself hself hcmp).symm
    cases hV : T.view with
    | int k => rw [hash_int ha hV,hzero]
    | word c => rw [hash_word ha hV,hzero]
    | arrayRef c n =>
      cases T with
      | arrayRef isChar id size =>
        have hread := hva.pointee (a.word 0) size (by rw [pointee,ha])
        rw [hzero,Memory.read_null (Nat.lt_trans (by decide) size.2)] at hread
        cases hread
      | ptr kind => cases kind <;> cases hV
      | _ => cases hV
    | fat =>
      rw [AgreesWithNull,hV] at hagree
      exact hagree.elim
    | _ =>
      rw [hV] at hnumber
      rcases hnumber with ⟨k,hk⟩ | h
      · cases hk
      · exact h.elim
  · have hsmall (hsize : T.size ≤ 8 ∧ zeroed = true)
        (hbytes : bytesOf a.word T.size = bytesOf b.word T.size) : a.hash axl m = some 0 := by
      obtain ⟨hpa,hpb⟩ := hpad hsize.2
      have hnull : b.size ≤ T.size := by
        rw [size,hb]
        exact Nat.zero_le _
      rw [hash_small ha hsize.1,hpa.word_of_bytes hpb (size_some ha).le hnull hbytes,
        hpb.word_null hb]
    cases T with
    | array isChar id size =>
      exact hsmall ⟨hagree.2,hagree.1⟩ (Except.ok.inj (hia.trans hib.symm))
    | struct id size =>
      rcases hagree.2 with hsize | ⟨id',size',h⟩
      · exact hsmall ⟨hsize,hagree.1⟩ (Except.ok.inj (hia.trans hib.symm))
      · cases h
    | structRef id size =>
      have hread := Memory.load_ok.mp hib
      rw [(hpad hagree.1).2.word_null hb,Memory.read_null (Nat.lt_trans (by decide) size.2)] at hread
      cases hread
    | ptr kind id => exact absurd (.inr (view_ptr kind id)) hnumber
    | arrayRef => exact absurd (.inr trivial) hnumber
    | int k | enum _ k => exact absurd (.inl ⟨k,rfl⟩) hnumber
    | _ => exact hagree.elim
end Variant

/-- Types that agree: equal variants have equal hashes. -/
theorem EqualsHashAlike.of_agree (hdoc : axl.Documented) {S T : Option VarType}
    (hagree : HashesAgree zeroed S T) : EqualsHashAlike axl zeroed S T := by
  intro m a b ha hb hva hvb hpad heq
  cases S with
  | none =>
    rw [Variant.hash_null ha]
    cases T with
    | none => rw [Variant.hash_null hb]
    | some T =>
      exact (Variant.hash_eq_null hb ha hvb (fun hz => (hpad hz).symm) hagree (.inr heq)).symm
  | some S =>
    cases T with
    | none =>
      rw [Variant.hash_null hb]
      exact Variant.hash_eq_null ha hb hva hpad hagree (.inl heq)
    | some T => exact Variant.hash_eq_typed hdoc ha hb hva hvb hpad hagree.1 hagree.2 heq

namespace Axl

def djb2Bytes (bytes : List Byte) : Word :=
  bytes.foldl (fun h c => h * 33 + c.setWidth 64) 5381

/-- The order of the bytes that differ first, else of the lengths. -/
def cmpBytes : List Byte → List Byte → ℤ
  | [],[] => 0
  | [],_ :: _ => -1
  | _ :: _,[] => 1
  | c :: s,d :: t => if c = d then cmpBytes s t else if c.toNat < d.toNat then -1 else 1

theorem cmpBytes_self (x : List Byte) : cmpBytes x x = 0 := by
  induction x with
  | nil => rfl
  | cons c s ih => rw [cmpBytes,if_pos rfl,ih]

theorem cmpBytes_swap (x y : List Byte) : cmpBytes x y < 0 ↔ cmpBytes y x > 0 := by
  induction x generalizing y with
  | nil => cases y <;> simp [cmpBytes]
  | cons c s ih =>
    cases y with
    | nil => simp [cmpBytes]
    | cons d t =>
      rw [cmpBytes,cmpBytes]
      by_cases heq : c = d
      · rw [if_pos heq,if_pos heq.symm]
        exact ih t
      · have hne : c.toNat ≠ d.toNat := fun h => heq (BitVec.eq_of_toNat_eq h)
        rw [if_neg heq,if_neg (Ne.symm heq)]
        split_ifs <;> omega

theorem cmpBytes_eq (x y : List Byte) (h : cmpBytes x y = 0) : x = y := by
  induction x generalizing y with
  | nil =>
    cases y with
    | nil => rfl
    | cons d t => simp [cmpBytes] at h
  | cons c s ih =>
    cases y with
    | nil => simp [cmpBytes] at h
    | cons d t =>
      rw [cmpBytes] at h
      split_ifs at h with heq hlt
      · rw [heq,ih t h]
      · exact absurd h (by decide)

theorem cmpBytes_trans (x y z : List Byte) (hxy : cmpBytes x y < 0) (hyz : cmpBytes y z < 0) :
    cmpBytes x z < 0 := by
  induction x generalizing y z with
  | nil =>
    cases y with
    | nil => simp [cmpBytes] at hxy
    | cons d t =>
      cases z with
      | nil => simp [cmpBytes] at hyz
      | cons e u => simp [cmpBytes]
  | cons c s ih =>
    cases y with
    | nil => simp [cmpBytes] at hxy
    | cons d t =>
      cases z with
      | nil => simp [cmpBytes] at hyz
      | cons e u =>
        rw [cmpBytes] at hxy hyz ⊢
        by_cases hcd : c = d
        · subst hcd
          rw [if_pos rfl] at hxy
          by_cases hce : c = e
          · rw [if_pos hce] at hyz ⊢
            exact ih t u hxy hyz
          · rw [if_neg hce] at hyz ⊢
            exact hyz
        · rw [if_neg hcd] at hxy
          have hlt : c.toNat < d.toNat := by
            split_ifs at hxy with h
            · exact h
            · exact absurd hxy (by decide)
          have hle : d.toNat ≤ e.toNat := by
            split_ifs at hyz with hde h
            · rw [hde]
            · exact h.le
            · exact absurd hyz (by decide)
          have hce : c ≠ e := by
            rintro rfl
            omega
          rw [if_neg hce,if_pos (by omega)]
          decide

/-- The functions as their documentation has them. -/
def machine : Axl where
  djb2 := djb2Bytes
  isEqual x y := x = y
  cmp := cmpBytes

theorem machine_documented : machine.Documented where
  djb2_nil := rfl
  djb2_append bytes c := by simp [machine,djb2Bytes]
  isEqual_iff x y := by simp [machine]
  cmp_self := cmpBytes_self
  cmp_swap := cmpBytes_swap
  cmp_eq := cmpBytes_eq
  cmp_trans := cmpBytes_trans

end Axl

/-- Unsigned numbers of different widths. -/
theorem equalsHashAlike_unsigned :
    EqualsHashAlike Axl.machine true (some (.int .int8_u)) (some (.int .int64)) :=
  EqualsHashAlike.of_agree Axl.machine_documented
    ⟨⟨by decide,by decide⟩,.inl rfl⟩

/-- Memory without anything in it. -/
def Memory.empty : Memory where
  byte _ := none
  validator _ := none
  byte_null := rfl
  validator_null := rfl

/-- The numbers `-1` of 8 and of 32 bits are equal, but their hashes are not. -/
theorem int8_int32_not_equalsHashAlike :
    ¬ ∀ S T, EqualsHashAlike Axl.machine true S T := by
  intro h
  have hlaw := h (some (.int .int8)) (some (.int .int32)) Memory.empty
    (.of (.int .int8) [0xff]) (.of (.int .int32) [0xffffffff]) rfl rfl
  have hhash := hlaw ?_ ?_ ?_ (by decide)
  · exact absurd hhash (by decide)
  · refine ⟨?_,fun p n hp => by cases hp⟩
    intro T k hT hk hbool
    obtain rfl := Option.some.inj hT
    obtain rfl := VarType.View.int.inj hk
    exact absurd hbool (by decide)
  · refine ⟨?_,fun p n hp => by cases hp⟩
    intro T k hT hk hbool
    obtain rfl := Option.some.inj hT
    obtain rfl := VarType.View.int.inj hk
    exact absurd hbool (by decide)
  · intro _
    constructor
    · intro i
      rcases i with _ | i
      · decide
      · simp [Variant.word,Variant.of,Variant.dataOf]
    · intro i
      rcases i with _ | i
      · decide
      · simp [Variant.word,Variant.of,Variant.dataOf]

end Jancy.Api
