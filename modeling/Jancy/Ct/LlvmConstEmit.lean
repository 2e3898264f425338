import Jancy.Ct.LlvmConstReplay

/-! When the constant has the bytes of the value: if and only if no struct in it has bit fields that
share a storage unit, no array has elements that raw data cannot have, and no size wraps. -/
namespace Jancy.Ct

variable {τ : Type} [MemberType τ] [DecidableEq τ] {align : ℕ → ℕ → ℕ}

variable {f g : τ → List UInt8 → Emission} {m : ConstTypes τ align}

theorem LlvmPodStruct.add_congr {type : τ} (h : ∀ p, f type p = g type p) (elements : List LlvmType)
    (p : List UInt8) (b : LlvmPodStruct) (offset : ℕ) :
    b.add elements p m f offset type = b.add elements p m g offset type := by
  simp only [add,h]

theorem LlvmPodStruct.addMembers_congr {ds : List (FieldDecl τ × LaidField)}
    (h : ∀ d ∈ ds, ∀ p, f d.1.type p = g d.1.type p) (elements : List LlvmType) (p : List UInt8) :
    ∀ b : LlvmPodStruct, b.addMembers elements p m f ds = b.addMembers elements p m g ds := by
  induction ds with
  | nil =>
    intro b
    rfl
  | cons d ds ih =>
    intro b
    have hrest := ih fun e he => h e (List.mem_cons_of_mem _ he)
    simp only [addMembers,add_congr (h d List.mem_cons_self),hrest]

theorem LlvmPodStruct.get_congr {type : LaidStruct τ align}
    (h : ∀ d ∈ type.members, ∀ p, f d.1.type p = g d.1.type p) (p : List UInt8) :
    get p m f type = get p m g type := by
  simp only [get,addMembers_congr h]

namespace ConstTypes

variable (m : ConstTypes τ align)

/-- The table, by what constants are made of. -/
def emitShape (f : τ → List UInt8 → Emission) (type : τ) (p : List UInt8) :
    ConstShape τ align → Emission
  | .bool1 => m.getLlvmConstantFunc_bool1 type p
  | .int intType isSigned => m.getLlvmConstantFunc_int intType isSigned type p
  | .fp => m.getLlvmConstantFunc_fp type p
  | .ptr => m.getLlvmConstantFunc_ptr type p
  | .array _ _ => m.getLlvmConstantFunc_array type p
  | .enum rootType => f rootType p
  | .struct structType => LlvmPodStruct.get p m f structType

theorem getLlvmConstantFunc_eq (f : τ → List UInt8 → Emission) (type : τ) (p : List UInt8) :
    m.getLlvmConstantFunc f type p = m.emitShape f type p (m.shape type) := by
  unfold getLlvmConstantFunc shape ConstTypeKind.shape
  cases m.kind type with
  | dataPtr ptrKind => dsimp only; split <;> rfl
  | functionPtr ptrKind => dsimp only; split <;> rfl
  | propertyPtr ptrKind => dsimp only; split <;> rfl
  | _ => rfl

theorem getLlvmConstBody_congr {f g : τ → List UInt8 → Emission} {type : τ}
    (h : ∀ t, m.depth t < m.depth type → ∀ p, f t p = g t p) (p : List UInt8) :
    m.getLlvmConstBody f type p = m.getLlvmConstBody g type p := by
  have htable : m.getLlvmConstantFunc f type p = m.getLlvmConstantFunc g type p := by
    rw [getLlvmConstantFunc_eq,getLlvmConstantFunc_eq]
    cases hshape : m.shape type with
    | enum rootType => exact h rootType (m.enum type rootType hshape).2.2 p
    | struct structType =>
      apply LlvmPodStruct.get_congr
      intro d hd
      exact h d.1.type ((m.struct type structType hshape).2.2 d hd)
    | _ => rfl
  unfold getLlvmConstBody
  rw [htable]

theorem getLlvmConstAt_eq (depth : ℕ) :
    ∀ type p, m.depth type < depth → m.getLlvmConstAt depth type p = m.getLlvmConst type p := by
  induction depth using Nat.strong_induction_on with
  | _ depth ih =>
    intro type p hdepth
    cases depth with
    | zero => exact absurd hdepth (Nat.not_lt_zero _)
    | succ depth =>
      apply m.getLlvmConstBody_congr
      intro t ht q
      rw [ih depth (Nat.lt_succ_self _) t q (by omega)]
      exact (ih (m.depth type) (by omega) t q ht).symm

theorem getLlvmConst_eq (type : τ) (p : List UInt8) :
    m.getLlvmConst type p = m.getLlvmConstBody m.getLlvmConst type p :=
  m.getLlvmConstBody_congr (fun t ht q => m.getLlvmConstAt_eq _ t q ht) p

variable {m} {type : τ} {p : List UInt8}

theorem extend_mod (intType : IntType) (isSigned : Bool) {value : ℕ}
    (h : value < 2 ^ (8 * intType.size)) :
    extend intType isSigned value % 2 ^ (8 * intType.size) = value := by
  unfold extend
  split
  · cases intType <;> simp only [IntType.size] at h ⊢ <;> omega
  · exact Nat.mod_eq_of_lt h

theorem emitInt_eq {intType : IntType} {isSigned : Bool}
    (hshape : m.shape type = .int intType isSigned) (hp : p.length = LayoutType.size type) :
    m.getLlvmConstantFunc_int intType isSigned type p = .ok ⟨m.llvmType type,p⟩ := by
  obtain ⟨hsize,hllvm⟩ := m.int type intType isSigned hshape
  rw [hsize] at hp
  have hread : readBytes p 0 intType.size = .ok p := by
    rw [readBytes_eq (by omega),← hp,slice_all]
  have hbytes : (intType.size * 8 + 7) / 8 = p.length := by omega
  have hload := LittleEndian.load_lt p
  rw [hp] at hload
  unfold getLlvmConstantFunc_int LlvmConst.getInt
  rw [hread,hllvm,Nat.mul_comm 8]
  simp only [bind,Except.bind,if_true]
  rw [Nat.mul_comm,extend_mod intType isSigned hload,Nat.mul_comm,hbytes,LittleEndian.store_load]

theorem emitPtr_eq (hshape : m.shape type = .ptr) (hp : p.length = LayoutType.size type) :
    m.getLlvmConstantFunc_ptr type p = .ok ⟨m.llvmType type,p⟩ := by
  rw [(m.ptr type hshape).1] at hp
  have hread : readBytes p 0 8 = .ok p := by
    rw [readBytes_eq (by omega),← hp,slice_all]
  have hload := LittleEndian.load_lt p
  rw [hp] at hload
  have hstore : LittleEndian.store 8 (LittleEndian.load p % 2 ^ 64) = p := by
    rw [Nat.mod_eq_of_lt hload,← hp,LittleEndian.store_load]
  unfold getLlvmConstantFunc_ptr LlvmConst.getInt
  rw [hread]
  simp only [bind,Except.bind,if_true,pure,Except.pure]
  rw [hstore]

theorem emitFp_eq (hp : p.length = LayoutType.size type) :
    m.getLlvmConstantFunc_fp type p = .ok ⟨m.llvmType type,m.roundFp p⟩ := by
  unfold getLlvmConstantFunc_fp
  rw [readBytes_eq (by omega),← hp,slice_all]
  rfl

theorem emitBool1_eq (hshape : m.shape type = .bool1) (hp : p.length = LayoutType.size type)
    (hzero : ¬ p.all (· == 0) = true) :
    m.getLlvmConstantFunc_bool1 type p = .ok ⟨m.llvmType type,[1]⟩ := by
  obtain ⟨hsize,hllvm⟩ := m.bool1 type hshape
  rw [hsize] at hp
  have hread : readBytes p 0 1 = .ok p := by
    rw [readBytes_eq (by omega),← hp,slice_all]
  have hnonzero : p ≠ [0] := by
    intro h
    subst h
    exact hzero rfl
  unfold getLlvmConstantFunc_bool1 LlvmConst.getInt
  rw [hread,hllvm]
  simp only [bind,Except.bind,if_neg hnonzero]
  rfl

theorem emitArray_iff {elementType : τ} {elementCount : ℕ}
    (hshape : m.shape type = .array elementType elementCount)
    (hp : p.length = LayoutType.size type) (c : LlvmConst) :
    m.getLlvmConstantFunc_array type p = .ok c ↔
      c = ⟨m.llvmType type,p⟩ ∧
        ∃ size, LlvmConst.elementSize (m.llvmType elementType) = some size ∧
          p.length = elementCount * size := by
  obtain ⟨_,hllvm,_⟩ := m.array type elementType elementCount hshape
  have hread : readBytes p 0 (LayoutType.size type) = .ok p := by
    rw [readBytes_eq (by omega),← hp,slice_all]
  unfold getLlvmConstantFunc_array
  rw [hread,hllvm]
  constructor
  · intro h
    exact LlvmConst.getData_ok h
  · rintro ⟨rfl,size,helement,hlength⟩
    exact LlvmConst.getData_eq helement hlength

theorem getLlvmConst_nonzero (hp : p.length = LayoutType.size type)
    (hzero : ¬ p.all (· == 0) = true) :
    m.getLlvmConst type p = m.emitShape m.getLlvmConst type p (m.shape type) := by
  have hread : readBytes p 0 (LayoutType.size type) = .ok p := by
    rw [readBytes_eq (by omega),← hp,slice_all]
  rw [getLlvmConst_eq,getLlvmConstBody,hread,← getLlvmConstantFunc_eq]
  simp only [bind,Except.bind,if_neg hzero]

theorem eq_replicate_of_all {p : List UInt8} (h : p.all (· == 0) = true) :
    p = List.replicate p.length 0 := by
  apply List.eq_replicate_of_mem
  intro b hb
  exact beq_iff_eq.mp (List.all_eq_true.mp h b hb)

theorem getLlvmConst_zero (hp : p.length = LayoutType.size type) (hzero : p.all (· == 0) = true) :
    m.getLlvmConst type p = .ok ⟨m.llvmType type,p⟩ := by
  have hread : readBytes p 0 (LayoutType.size type) = .ok p := by
    rw [readBytes_eq (by omega),← hp,slice_all]
  rw [getLlvmConst_eq,getLlvmConstBody,hread]
  simp only [bind,Except.bind,if_pos hzero,LlvmConst.getNullValue,pure,Except.pure]
  rw [← hp,← eq_replicate_of_all hzero]

theorem getLlvmConst_ok (depth : ℕ) :
    ∀ {type : τ} {p : List UInt8} {c : LlvmConst}, m.depth type < depth →
      p.length = LayoutType.size type → m.getLlvmConst type p = .ok c →
      c.type = m.llvmType type ∧ c.image.length = LayoutType.size type := by
  induction depth with
  | zero =>
    intro type p c hdepth
    exact absurd hdepth (Nat.not_lt_zero _)
  | succ depth ih =>
    intro type p c hdepth hp h
    by_cases hzero : p.all (· == 0) = true
    · rw [getLlvmConst_zero hp hzero] at h
      cases h
      exact ⟨rfl,hp⟩
    · rw [getLlvmConst_nonzero hp hzero] at h
      cases hshape : m.shape type with
      | bool1 =>
        simp only [hshape,emitShape,emitBool1_eq hshape hp hzero] at h
        cases h
        exact ⟨rfl,(m.bool1 type hshape).1.symm⟩
      | int intType isSigned =>
        simp only [hshape,emitShape,emitInt_eq hshape hp] at h
        cases h
        exact ⟨rfl,hp⟩
      | fp =>
        simp only [hshape,emitShape,emitFp_eq hp] at h
        cases h
        exact ⟨rfl,(m.length_roundFp p).trans hp⟩
      | ptr =>
        simp only [hshape,emitShape,emitPtr_eq hshape hp] at h
        cases h
        exact ⟨rfl,hp⟩
      | array elementType elementCount =>
        simp only [hshape,emitShape,emitArray_iff hshape hp] at h
        rw [h.1]
        exact ⟨rfl,hp⟩
      | enum rootType =>
        obtain ⟨hsize,hllvm,hroot⟩ := m.enum type rootType hshape
        simp only [hshape,emitShape] at h
        rw [hsize] at hp ⊢
        rw [hllvm]
        exact ih (by omega) hp h
      | struct structType =>
        obtain ⟨hsize,hllvm,hmembers⟩ := m.struct type structType hshape
        simp only [hshape,emitShape] at h
        rw [hsize] at hp ⊢
        have hlengths := fun d hd data field (hdata : data.length = _)
          (hfield : m.getLlvmConst _ data = .ok field) =>
            (ih (Nat.lt_of_lt_of_le (hmembers d hd) (Nat.lt_succ_iff.mp hdepth)) hdata hfield).2
        obtain ⟨_,_,htype,hlength,_⟩ := LlvmPodStruct.get_ok hp h hlengths
        exact ⟨htype.trans hllvm.symm,hlength⟩

variable (m)

/-- The bytes of a value that are not padding. -/
inductive DataByte : τ → ℕ → Prop
  | single {type : τ} {i : ℕ} (hstruct : ∀ structType, m.shape type ≠ .struct structType)
      (harray : ∀ elementType elementCount, m.shape type ≠ .array elementType elementCount)
      (henum : ∀ rootType, m.shape type ≠ .enum rootType) (hi : i < LayoutType.size type) :
      DataByte type i
  | element {type elementType : τ} {elementCount i k : ℕ}
      (h : m.shape type = .array elementType elementCount) (hk : k < elementCount)
      (hi : DataByte elementType i) : DataByte type (k * LayoutType.size elementType + i)
  | root {type rootType : τ} {i : ℕ} (h : m.shape type = .enum rootType)
      (hi : DataByte rootType i) : DataByte type i
  | member {type : τ} {structType : LaidStruct τ align} {d : FieldDecl τ × LaidField} {i : ℕ}
      (h : m.shape type = .struct structType) (hd : d ∈ structType.members)
      (hi : DataByte d.1.type i) : DataByte type (d.2.offset + i)
  | unionField {type field : τ} {structType : LaidStruct τ align} {fields : List τ} {i : ℕ}
      (h : m.kind type = .union structType fields) (hfield : field ∈ fields)
      (hi : DataByte field i) : DataByte type i

/-- A constant of the type, with the bytes of `p` wherever they are not padding. In particular no
assertion has failed, and no byte outside `p` was read. -/
def Faithful (type : τ) (p : List UInt8) : Prop :=
  ∃ c, m.getLlvmConst type p = .ok c ∧ c.type = m.llvmType type ∧
    ∀ i < p.length, m.DataByte type i → c.image[i]? = p[i]?

/-- Values that the emission can deal with. -/
inductive Emittable : τ → List UInt8 → Prop
  | zero {type : τ} {p : List UInt8} (h : p.all (· == 0) = true) : Emittable type p
  | bool1 {type : τ} (h : m.shape type = .bool1) : Emittable type [1]
  | int {type : τ} {p : List UInt8} {intType : IntType} {isSigned : Bool}
      (h : m.shape type = .int intType isSigned) : Emittable type p
  | fp {type : τ} {p : List UInt8} (h : m.shape type = .fp) (hp : m.roundFp p = p) :
      Emittable type p
  | ptr {type : τ} {p : List UInt8} (h : m.shape type = .ptr) : Emittable type p
  | array {type elementType : τ} {p : List UInt8} {elementCount size : ℕ}
      (h : m.shape type = .array elementType elementCount)
      (helement : LlvmConst.elementSize (m.llvmType elementType) = some size)
      (hp : p.length = elementCount * size) : Emittable type p
  | enum {type rootType : τ} {p : List UInt8} (h : m.shape type = .enum rootType)
      (hroot : Emittable rootType p) : Emittable type p
  | struct {type : τ} {structType : LaidStruct τ align} {p : List UInt8}
      (h : m.shape type = .struct structType) (hfits : structType.Fits)
      (hunits : structType.UnitsApart)
      (hmembers : ∀ d ∈ structType.members,
        Emittable d.1.type (slice p d.2.offset (LayoutType.size d.1.type))) :
      Emittable type p

variable {m}

theorem Emittable.emitted {type : τ} {p : List UInt8} (h : m.Emittable type p) :
    p.length = LayoutType.size type → m.getLlvmConst type p = .ok ⟨m.llvmType type,p⟩ := by
  induction h with
  | zero hzero =>
    intro hp
    exact getLlvmConst_zero hp hzero
  | bool1 hshape =>
    intro hp
    have hzero : ¬ [(1 : UInt8)].all (· == 0) = true := by decide
    rw [getLlvmConst_nonzero hp hzero,hshape]
    exact emitBool1_eq hshape hp hzero
  | @int type p _ _ hshape =>
    intro hp
    by_cases hzero : p.all (· == 0) = true
    · exact getLlvmConst_zero hp hzero
    · rw [getLlvmConst_nonzero hp hzero,hshape]
      exact emitInt_eq hshape hp
  | @fp type p hshape hround =>
    intro hp
    by_cases hzero : p.all (· == 0) = true
    · exact getLlvmConst_zero hp hzero
    · rw [getLlvmConst_nonzero hp hzero,hshape]
      show m.getLlvmConstantFunc_fp type p = _
      rw [emitFp_eq hp,hround]
  | @ptr type p hshape =>
    intro hp
    by_cases hzero : p.all (· == 0) = true
    · exact getLlvmConst_zero hp hzero
    · rw [getLlvmConst_nonzero hp hzero,hshape]
      exact emitPtr_eq hshape hp
  | @array type elementType p elementCount size hshape helement hlength =>
    intro hp
    by_cases hzero : p.all (· == 0) = true
    · exact getLlvmConst_zero hp hzero
    · rw [getLlvmConst_nonzero hp hzero,hshape]
      exact (emitArray_iff hshape hp _).mpr ⟨rfl,size,helement,hlength⟩
  | @enum type rootType p hshape _ ih =>
    intro hp
    obtain ⟨hsize,hllvm,_⟩ := m.enum type rootType hshape
    by_cases hzero : p.all (· == 0) = true
    · exact getLlvmConst_zero hp hzero
    · rw [getLlvmConst_nonzero hp hzero,hshape,hllvm]
      exact ih (hp.trans hsize)
  | @struct type structType p hshape hfits hunits _ ih =>
    intro hp
    obtain ⟨hsize,hllvm,_⟩ := m.struct type structType hshape
    by_cases hzero : p.all (· == 0) = true
    · exact getLlvmConst_zero hp hzero
    · rw [getLlvmConst_nonzero hp hzero,hshape,hllvm]
      apply LlvmPodStruct.get_eq hfits hunits (hp.trans hsize)
      intro d hd
      have hinside := hfits.inside m.roundsUp hd
      rw [← hsize,← hp] at hinside
      exact ih d hd (length_slice hinside)

theorem faithful_emittable (depth : ℕ) :
    ∀ {type : τ} {p : List UInt8}, m.depth type < depth → p.length = LayoutType.size type →
      m.Faithful type p → m.Emittable type p := by
  induction depth with
  | zero =>
    intro type p hdepth
    exact absurd hdepth (Nat.not_lt_zero _)
  | succ depth ih =>
    intro type p hdepth hp hfaithful
    by_cases hzero : p.all (· == 0) = true
    · exact .zero hzero
    · obtain ⟨c,hc,htype,hbytes⟩ := hfaithful
      have hemit := hc
      rw [getLlvmConst_nonzero hp hzero] at hemit
      cases hshape : m.shape type with
      | bool1 =>
        simp only [hshape,emitShape,emitBool1_eq hshape hp hzero] at hemit
        cases hemit
        have hsize := (m.bool1 type hshape).1
        have hfirst := hbytes 0 (by omega) (.single (by simp [hshape]) (by simp [hshape])
          (by simp [hshape]) (by omega))
        obtain ⟨byte,rfl⟩ := List.length_eq_one_iff.mp (hp.trans hsize)
        cases hfirst
        exact .bool1 hshape
      | int intType isSigned => exact .int hshape
      | fp =>
        simp only [hshape,emitShape,emitFp_eq hp] at hemit
        cases hemit
        apply Emittable.fp hshape
        apply List.ext_getElem?
        intro i
        cases Nat.lt_or_ge i p.length with
        | inl hi =>
          exact hbytes i hi (.single (by simp [hshape]) (by simp [hshape]) (by simp [hshape])
            (by omega))
        | inr hi =>
          rw [List.getElem?_eq_none hi,List.getElem?_eq_none (by rw [m.length_roundFp]; exact hi)]
      | ptr => exact .ptr hshape
      | array elementType elementCount =>
        simp only [hshape,emitShape,emitArray_iff hshape hp] at hemit
        obtain ⟨_,size,helement,hlength⟩ := hemit
        exact .array hshape helement hlength
      | enum rootType =>
        obtain ⟨hsize,hllvm,hroot⟩ := m.enum type rootType hshape
        simp only [hshape,emitShape] at hemit
        apply Emittable.enum hshape
        apply ih (by omega) (hp.trans hsize)
        exact ⟨c,hemit,htype.trans hllvm,fun i hi hdata => hbytes i hi (.root hshape hdata)⟩
      | struct structType =>
        obtain ⟨hsize,hllvm,hmembers⟩ := m.struct type structType hshape
        simp only [hshape,emitShape] at hemit
        have hdeep : ∀ d ∈ structType.members, m.depth d.1.type < depth := fun d hd =>
          Nat.lt_of_lt_of_le (hmembers d hd) (Nat.lt_succ_iff.mp hdepth)
        obtain ⟨hfits,hunits,_,_,hemitted⟩ := LlvmPodStruct.get_ok (hp.trans hsize) hemit
          fun d hd data field hdata hfield => (getLlvmConst_ok depth (hdeep d hd) hdata hfield).2
        apply Emittable.struct hshape hfits hunits
        intro d hd
        obtain ⟨field,hinside,hfield,himage⟩ := hemitted d hd
        have hlength := length_slice hinside
        apply ih (hdeep d hd) hlength
        refine ⟨field,hfield,(getLlvmConst_ok depth (hdeep d hd) hlength hfield).1,?_⟩
        intro i hi hdata
        rw [hlength] at hi
        rw [← himage,getElem?_slice _ hi,getElem?_slice _ hi]
        unfold LlvmStructType.limit at hinside
        exact hbytes _ (by omega) (.member hshape hd hdata)

def ByteImage (type : τ) : Type := { p : List UInt8 // p.length = LayoutType.size type }

variable (m) in
/-- A constant has the bytes of the value if and only if the emission can deal with the value. -/
theorem faithful_iff (type : τ) (p : ByteImage type) :
    m.Faithful type p.val ↔ m.Emittable type p.val := by
  constructor
  · exact faithful_emittable (m.depth type + 1) (Nat.lt_succ_self _) p.property
  · intro h
    exact ⟨_,h.emitted p.property,rfl,fun i _ _ => rfl⟩

end ConstTypes

/-- `int`, `char thin*`, `char*`, a struct with two bit fields of `int`, and an array of two thin
pointers. -/
inductive SampleConst where
  | int32
  | thinPtr
  | fatPtr
  | flags
  | ptrArray
  deriving DecidableEq

instance : MemberType SampleConst where
  size
    | .int32 | .flags => 4
    | .thinPtr => 8
    | .fatPtr | .ptrArray => 16
  alignment
    | .int32 | .flags => 4
    | _ => 8
  isInteger t := t = .int32
  size_le t h := by
    cases t with
    | int32 => decide
    | _ => cases h
  alignment_pow t := by
    cases t with
    | int32 | flags => exact ⟨2,rfl⟩
    | _ => exact ⟨3,rfl⟩
  isDerivable t := t = .flags
  isClass _ := false

namespace SampleConst

open Rtl (alignUp alignUp_roundsUp)

def laidStruct (llvmId : ℕ) (fields : List (FieldDecl SampleConst)) (placements : List LaidField)
    (laid : LlvmStructType SampleConst) (size : ℕ)
    (h : (LlvmStructType.create .reset).calcLayout alignUp true .normal [] fields =
      .ok (placements,laid,size)) : LaidStruct SampleConst alignUp where
  llvmId := llvmId
  start := .create .reset
  started := LlvmStructType.started_create .reset
  baseTypes := []
  fields := fields
  placements := placements
  laid := laid
  size := size
  calcLayout_eq := h

/-- `struct jnc.DataPtr`. -/
def dataPtrStruct : LaidStruct SampleConst alignUp :=
  laidStruct 0 [.ofBase .thinPtr,.ofBase .thinPtr] _ _ _ rfl

/-- `int a : 3; int b : 5;` -/
def flagsStruct : LaidStruct SampleConst alignUp :=
  laidStruct 1 [⟨.int32,3,⟨false,0⟩,fun _ => rfl⟩,⟨.int32,5,⟨false,0⟩,fun _ => rfl⟩] _ _ _ rfl

def constTypes : ConstTypes SampleConst alignUp where
  roundsUp := alignUp_roundsUp
  kind
    | .int32 => .int .int32 true
    | .thinPtr => .dataPtr .thin
    | .fatPtr => .dataPtr .normal
    | .flags => .struct flagsStruct
    | .ptrArray => .array .thinPtr 2
  stdType _ := dataPtrStruct
  llvmType
    | .int32 => .int 32
    | .thinPtr => .pointer 0
    | .fatPtr => .struct 0
    | .flags => .struct 1
    | .ptrArray => .array 2 (.pointer 0)
  depth
    | .int32 | .thinPtr => 0
    | _ => 1
  roundFp p := p
  length_roundFp _ := rfl
  bool1 t h := by cases t <;> cases h
  int t _ _ h := by
    cases t <;> cases h
    exact ⟨rfl,rfl⟩
  fp t h := by cases t <;> cases h
  array t _ _ h := by
    cases t <;> cases h
    exact ⟨rfl,rfl,by decide⟩
  enum t _ h := by cases t <;> cases h
  union t _ _ h := by cases t <;> cases h
  ptr t h := by
    cases t <;> cases h
    exact ⟨rfl,0,rfl⟩
  struct t type h := by
    cases t <;> cases h
    · exact ⟨rfl,rfl,by decide⟩
    · exact ⟨rfl,rfl,by decide⟩

/-- A fat pointer is emitted with its bytes. -/
example : constTypes.getLlvmConst .fatPtr [1,2,3,4,5,6,7,8,9,10,11,12,13,14,15,16] =
    .ok ⟨.struct 0,[1,2,3,4,5,6,7,8,9,10,11,12,13,14,15,16]⟩ := by decide

/-- The second of two bit fields in one `int` trips the assertion on the offset, and an array of
pointers is no raw data. -/
theorem not_faithful :
    constTypes.getLlvmConst .flags [1,0,0,0] = .error .assertion ∧
      ¬ constTypes.Faithful .flags [1,0,0,0] ∧
      constTypes.getLlvmConst .ptrArray [1,0,0,0,0,0,0,0,0,0,0,0,0,0,0,0] = .error .elementType ∧
      ¬ constTypes.Faithful .ptrArray [1,0,0,0,0,0,0,0,0,0,0,0,0,0,0,0] := by
  have hflags : constTypes.getLlvmConst .flags [1,0,0,0] = .error .assertion := by decide
  have harray : constTypes.getLlvmConst .ptrArray [1,0,0,0,0,0,0,0,0,0,0,0,0,0,0,0] =
      .error .elementType := by decide
  refine ⟨hflags,?_,harray,?_⟩
  · rintro ⟨c,hc,_⟩
    rw [hflags] at hc
    cases hc
  · rintro ⟨c,hc,_⟩
    rw [harray] at hc
    cases hc

end SampleConst
end Jancy.Ct
