import Jancy.Ct.CalcLayout
import Mathlib.Algebra.GroupWithZero.Nat

/-! Runs of the layout. A run whose sums stay below `2 ^ 64` is a run of the layout over natural
numbers, and keeps the bases and fields in order, apart and in step with the LLVM fields. -/
namespace Jancy.Ct

def FieldDecl.ofBase {τ : Type} [LayoutType τ] (type : τ) : FieldDecl τ :=
  ⟨type,0,⟨false,0⟩,fun h => absurd rfl h⟩

def llvmSize {τ : Type} [LayoutType τ] (fields : List (LlvmFieldType τ)) : ℕ :=
  (fields.map LlvmFieldType.size).sum

section LlvmSize

variable {τ : Type} [LayoutType τ]

@[simp] theorem llvmSize_append (fields fields' : List (LlvmFieldType τ)) :
    llvmSize (fields ++ fields') = llvmSize fields + llvmSize fields' := by
  simp [llvmSize]

@[simp] theorem llvmSize_padding (size : ℕ) : llvmSize [LlvmFieldType.padding (τ := τ) size] = size := by
  simp [llvmSize,LlvmFieldType.size]

@[simp] theorem llvmSize_member (type : τ) :
    llvmSize [LlvmFieldType.member type] = LayoutType.size type := by
  simp [llvmSize,LlvmFieldType.size]

end LlvmSize

namespace StructType

variable {τ : Type} [LayoutType τ] {align : ℕ → ℕ → ℕ} {s t : StructType τ}

theorem RoundsUp.le_of_dvd (h : RoundsUp align) {n m k : ℕ} (hle : n ≤ m) (hdvd : 2 ^ k ∣ m) :
    align n (2 ^ k) ≤ m := by
  have hlt := h.lt n k
  obtain ⟨a,ha⟩ := h.dvd n k
  obtain ⟨b,rfl⟩ := hdvd
  rw [ha] at hlt ⊢
  apply Nat.mul_le_mul_left
  by_contra hba
  have hstep : 2 ^ k * (b + 1) ≤ 2 ^ k * a := Nat.mul_le_mul_left _ (by omega)
  rw [Nat.mul_add,Nat.mul_one] at hstep
  omega

theorem dvd_max_pow {a b : ℕ} (ha : ∃ k, a = 2 ^ k) (hb : ∃ k, b = 2 ^ k) :
    (∃ k, max a b = 2 ^ k) ∧ a ∣ max a b ∧ b ∣ max a b := by
  obtain ⟨k,rfl⟩ := ha
  obtain ⟨l,rfl⟩ := hb
  cases Nat.le_total k l with
  | inl hle =>
    have hpow : 2 ^ k ≤ 2 ^ l := Nat.pow_le_pow_right (by decide) hle
    rw [Nat.max_eq_right hpow]
    exact ⟨⟨l,rfl⟩,Nat.pow_dvd_pow 2 hle,Nat.dvd_refl _⟩
  | inr hle =>
    have hpow : 2 ^ l ≤ 2 ^ k := Nat.pow_le_pow_right (by decide) hle
    rw [Nat.max_eq_left hpow]
    exact ⟨⟨k,rfl⟩,Nat.dvd_refl _,Nat.pow_dvd_pow 2 hle⟩

theorem getFieldOffset_alignment_eq (align : ℕ → ℕ → ℕ) (s : StructType τ) (type : τ) :
    (s.getFieldOffset align type).2.alignment =
      max s.alignment (effectiveAlignment s.fieldAlignment type) := by
  unfold getFieldOffset effectiveAlignment
  dsimp only
  split <;> rename_i hbig <;> split <;> rename_i hgrows <;> (try dsimp only) <;> omega

theorem fieldSize_le_newOffset (h : RoundsUp align) (s : StructType τ) (type : τ) :
    s.fieldSize ≤ newOffset align s.fieldAlignment s.fieldSize type :=
  (h.rounding s.fieldAlignment_pow).le s.fieldSize type

variable [DecidableEq τ] {field : FieldDecl τ} {p : Placement}

theorem layoutField_grows (h : RoundsUp align) (hs : s.layoutField align field = some (p,t)) :
    s.fieldSize ≤ t.fieldSize ∧ ((∃ k, s.alignment = 2 ^ k) → ∃ k, t.alignment = 2 ^ k) := by
  have hle := fieldSize_le_newOffset h s field.type
  have hunit : (∃ k, s.alignment = 2 ^ k) →
      ∃ k, (s.getFieldOffset align field.type).2.alignment = 2 ^ k := by
    intro hpow
    rw [getFieldOffset_alignment_eq]
    exact (dvd_max_pow hpow (effectiveAlignment_pow s.fieldAlignment_pow field.type)).1
  unfold layoutField layoutBitField at hs
  split at hs
  · split at hs
    · cases hs
    · split at hs <;> cases hs
      · exact ⟨Nat.le_refl _,id⟩
      · exact ⟨Nat.le_trans hle (Nat.le_add_right _ _),hunit⟩
  · cases hs
    exact ⟨Nat.le_trans hle (Nat.le_add_right _ _),hunit⟩

theorem layoutFields_grows (h : RoundsUp align) {fields : List (FieldDecl τ)} :
    ∀ {s : StructType τ} {ps : List Placement},
      s.layoutFields align fields = some (ps,t) →
      s.fieldSize ≤ t.fieldSize ∧ ((∃ k, s.alignment = 2 ^ k) → ∃ k, t.alignment = 2 ^ k) := by
  induction fields with
  | nil =>
    intro s ps hs
    cases hs
    exact ⟨Nat.le_refl _,id⟩
  | cons field fields ih =>
    intro s ps hs
    unfold layoutFields at hs
    split at hs
    · cases hs
    · rename_i p s₁ hfield
      split at hs
      · cases hs
      · rename_i ps₁ s₂ hfields
        cases hs
        obtain ⟨hle,hpow⟩ := layoutField_grows h hfield
        obtain ⟨hle₁,hpow₁⟩ := ih hfields
        exact ⟨Nat.le_trans hle hle₁,fun hs => hpow₁ (hpow hs)⟩

end StructType

namespace LlvmStructType

variable {τ : Type} [LayoutType τ] [DecidableEq τ] (align : ℕ → ℕ → ℕ) (hasCodeGen : Bool)

open StructType (RoundsUp effectiveAlignment newOffset)

/-- A base or a field, without the checks of its type. -/
def layoutMember (s : LlvmStructType τ) (field : FieldDecl τ) :
    Except LayoutError (LaidField × LlvmStructType τ) :=
  if field.bitCount ≠ 0 then s.layoutBitField align hasCodeGen field
  else .ok (s.layoutFieldImpl align hasCodeGen field.type)

inductive Run : LlvmStructType τ → List (FieldDecl τ) → List LaidField → LlvmStructType τ → Prop
  | nil (s : LlvmStructType τ) : Run s [] [] s
  | cons {s s₁ s₂ : LlvmStructType τ} {field : FieldDecl τ} {p : LaidField}
      {fields : List (FieldDecl τ)} {ps : List LaidField}
      (h : s.layoutMember align hasCodeGen field = .ok (p,s₁)) (hs : Run s₁ fields ps s₂) :
      Run s (field :: fields) (p :: ps) s₂

variable {align hasCodeGen} {s s₁ s₂ s' : LlvmStructType τ} {field : FieldDecl τ} {p : LaidField}
  {fields fields' : List (FieldDecl τ)} {ps ps' : List LaidField}

theorem Run.append (h : Run align hasCodeGen s fields ps s₁)
    (h' : Run align hasCodeGen s₁ fields' ps' s₂) :
    Run align hasCodeGen s (fields ++ fields') (ps ++ ps') s₂ := by
  induction h with
  | nil => exact h'
  | cons hp _ ih => exact .cons hp (ih h')

omit [LayoutType τ] [DecidableEq τ] in
theorem addLlvmField_toStructType (s : LlvmStructType τ) (offset : ℕ) (type : τ) :
    (s.addLlvmField hasCodeGen offset type).2.toStructType = s.toStructType := by
  unfold addLlvmField
  split
  · dsimp only
    split <;> rfl
  · rfl

/-- The member of the LLVM struct stands at `offset` if the members before fill `fieldSize`. -/
structure LlvmAdded (fields : List (LlvmFieldType τ)) (fieldSize offset : ℕ) (type : τ)
    (llvmIndex : Option ℕ) (fields' : List (LlvmFieldType τ)) : Prop where
  added : ∃ padding, fields' = fields ++ padding ++ [.member type] ∧
    llvmSize padding = offset - fieldSize ∧
    llvmIndex = some ((fields ++ padding).length % 2 ^ 32)

omit [DecidableEq τ] in
theorem addLlvmField_added (s : LlvmStructType τ) (offset : ℕ) (type : τ) :
    LlvmAdded s.llvmFieldTypeArray s.fieldSize offset type (s.addLlvmField true offset type).1
      (s.addLlvmField true offset type).2.llvmFieldTypeArray := by
  constructor
  unfold addLlvmField addLlvmPadding
  simp only [if_true]
  split
  · exact ⟨[.padding (offset - s.fieldSize)],rfl,llvmSize_padding _,rfl⟩
  · rename_i hle
    refine ⟨[],by simp,?_,by simp⟩
    show 0 = offset - s.fieldSize
    omega

/-- A member in a storage unit of its own. -/
structure Opens (align : ℕ → ℕ → ℕ) (hasCodeGen : Bool) (s : LlvmStructType τ)
    (field : FieldDecl τ) (p : LaidField) (s' : LlvmStructType τ) : Prop where
  offset : p.offset = newOffset align s.fieldAlignment s.fieldSize field.type % 2 ^ 64
  fieldSize : s'.fieldSize = (p.offset + LayoutType.size field.type) % 2 ^ 64
  alignment : s'.alignment = max s.alignment (effectiveAlignment s.fieldAlignment field.type)
  fieldAlignment : s'.fieldAlignment = s.fieldAlignment
  last : ∀ last ∈ s'.lastBitField, field.bitCount ≠ 0 ∧ last.type = field.type ∧
    last.offset = p.offset ∧ s'.lastLlvmIndex = p.llvmIndex
  llvm : hasCodeGen = true → LlvmAdded s.llvmFieldTypeArray s.fieldSize p.offset field.type
    p.llvmIndex s'.llvmFieldTypeArray

structure Merges (s : LlvmStructType τ) (field : FieldDecl τ) (p : LaidField)
    (s' : LlvmStructType τ) : Prop where
  bits : field.bitCount ≠ 0
  merged : ∃ last bitOffset, s.lastBitField = some last ∧ last.type = field.type ∧
    p = ⟨⟨last.offset,bitOffset,field.bitCount⟩,s.lastLlvmIndex⟩ ∧
    s' = { s with lastBitField := some ⟨field.type,last.offset,bitOffset,field.bitCount⟩ }

theorem mergeBitField_some {s : StructType τ} {last : BitField τ} {bitOffset : ℕ}
    (h : s.mergeBitField field = (some last,bitOffset)) :
    s.lastBitField = some last ∧ last.type = field.type := by
  unfold StructType.mergeBitField at h
  dsimp only at h
  split at h
  · cases h
  · rename_i last' hlast
    split at h
    · cases h
    · rename_i htype
      split at h <;> split at h <;> cases h <;> exact ⟨hlast,not_not.mp htype⟩

/-- The struct that has the alignment for a member already. -/
def withAlignment (align : ℕ → ℕ → ℕ) (s : LlvmStructType τ) (type : τ) : LlvmStructType τ :=
  { s with toStructType := (s.getFieldOffset (alignSize align) type).2 }

omit [DecidableEq τ] in
theorem opens_unit (s : LlvmStructType τ) (field : FieldDecl τ) (bitOffset bitCount : ℕ)
    (last : Option (BitField τ)) (lastLlvmIndex : Option ℕ) {offset : ℕ}
    {added : Option ℕ × LlvmStructType τ}
    (hoffset : offset = (s.getFieldOffset (alignSize align) field.type).1)
    (hadded : added = (s.withAlignment align field.type).addLlvmField hasCodeGen offset field.type)
    (hlast : ∀ b ∈ last, field.bitCount ≠ 0 ∧ b.type = field.type ∧ b.offset = offset ∧
      lastLlvmIndex = added.1) :
    Opens align hasCodeGen s field ⟨⟨offset,bitOffset,bitCount⟩,added.1⟩
      { added.2 with
        fieldSize := (offset + LayoutType.size field.type) % 2 ^ 64
        lastBitField := last
        lastLlvmIndex } := by
  have hstruct : ((s.withAlignment align field.type).addLlvmField hasCodeGen offset
      field.type).2.toStructType = (s.withAlignment align field.type).toStructType :=
    addLlvmField_toStructType _ _ _
  rw [← hadded] at hstruct
  constructor
  · exact hoffset
  · rfl
  · show added.2.alignment = _
    rw [hstruct]
    exact StructType.getFieldOffset_alignment_eq (alignSize align) s.toStructType field.type
  · show added.2.fieldAlignment = _
    rw [hstruct]
    exact StructType.getFieldOffset_fieldAlignment (alignSize align) s.toStructType field.type
  · exact hlast
  · intro hcode
    subst hcode
    have hsize : (s.withAlignment align field.type).fieldSize = s.fieldSize := by
      unfold withAlignment StructType.getFieldOffset
      dsimp only
      split <;> split <;> rfl
    rw [← hsize,hadded]
    exact addLlvmField_added (s.withAlignment align field.type) offset field.type

omit [DecidableEq τ] in
theorem unit_toStructType (s : LlvmStructType τ) (field : FieldDecl τ) (fieldSize offset : ℕ)
    (last : Option (BitField τ)) (lastLlvmIndex : Option ℕ) {added : Option ℕ × LlvmStructType τ}
    (hadded : added = (s.withAlignment align field.type).addLlvmField hasCodeGen offset field.type) :
    ({ added.2 with fieldSize, lastBitField := last, lastLlvmIndex } :
      LlvmStructType τ).toStructType =
        { (s.getFieldOffset align field.type).2 with fieldSize, lastBitField := last } := by
  have hstruct : ((s.withAlignment align field.type).addLlvmField hasCodeGen offset
      field.type).2.toStructType = (s.withAlignment align field.type).toStructType :=
    addLlvmField_toStructType _ _ _
  rw [← hadded] at hstruct
  show ({ added.2.toStructType with fieldSize, lastBitField := last } : StructType τ) = _
  rw [hstruct]
  rfl

/-- A member is laid out as over natural numbers, unless a sum reaches `2 ^ 64`. -/
theorem layoutMember_cases (h : s.layoutMember align hasCodeGen field = .ok (p,s')) :
    ∃ q t, s.toStructType.layoutField align field = some (q,t) ∧
      (Merges s field p s' ∧ q = p.toPlacement ∧ t = s'.toStructType ∨
        Opens align hasCodeGen s field p s' ∧
          t.fieldSize = newOffset align s.fieldAlignment s.fieldSize field.type +
            LayoutType.size field.type ∧
          (t.fieldSize < 2 ^ 64 → q = p.toPlacement ∧ t = s'.toStructType)) := by
  unfold layoutMember at h
  unfold StructType.layoutField
  have hunit : ∀ (last : ℕ → Option (BitField τ)) (lastLlvmIndex : Option ℕ) (offset : ℕ)
      (added : Option ℕ × LlvmStructType τ),
      offset = newOffset align s.fieldAlignment s.fieldSize field.type →
      added = (s.withAlignment align field.type).addLlvmField hasCodeGen (offset % 2 ^ 64)
        field.type →
      offset + LayoutType.size field.type < 2 ^ 64 →
      offset % 2 ^ 64 = offset ∧
        StructType.afterUnit align s.toStructType field.type (last offset) =
          ({ added.2 with
            fieldSize := (offset % 2 ^ 64 + LayoutType.size field.type) % 2 ^ 64
            lastBitField := last (offset % 2 ^ 64)
            lastLlvmIndex } : LlvmStructType τ).toStructType := by
    intro last lastLlvmIndex offset added hoffset hadded hlt
    have hmod : offset % 2 ^ 64 = offset := Nat.mod_eq_of_lt (by omega)
    refine ⟨hmod,?_⟩
    rw [unit_toStructType s field _ _ _ _ hadded,hmod,Nat.mod_eq_of_lt hlt,hoffset]
    rfl
  split at h
  · rename_i hbits
    rw [if_pos hbits]
    unfold layoutBitField at h
    unfold StructType.layoutBitField
    split at h
    · cases h
    · rename_i hfit
      rw [if_neg hfit]
      rcases hmerge : s.toStructType.mergeBitField field with ⟨_ | last,bitOffset⟩
      · simp only [hmerge] at h ⊢
        cases h
        refine ⟨_,_,rfl,Or.inr ⟨?_,rfl,?_⟩⟩
        · apply opens_unit s field _ _ _ _ rfl rfl
          intro b hb
          cases hb
          exact ⟨hbits,rfl,rfl,rfl⟩
        · intro hlt
          obtain ⟨hmod,hstruct⟩ :=
            hunit (fun offset => some ⟨field.type,offset,bitOffset,field.bitCount⟩) _ _ _ rfl rfl hlt
          exact ⟨congrArg (Placement.mk · bitOffset field.bitCount) hmod.symm,hstruct⟩
      · simp only [hmerge] at h ⊢
        obtain ⟨hlast,htype⟩ := mergeBitField_some hmerge
        cases h
        exact ⟨_,_,rfl,Or.inl ⟨⟨hbits,last,bitOffset,hlast,htype,rfl,rfl⟩,rfl,rfl⟩⟩
  · rename_i hbits
    cases h
    rw [if_neg hbits]
    refine ⟨_,_,rfl,Or.inr ⟨?_,rfl,?_⟩⟩
    · apply opens_unit s field 0 0 none _ rfl rfl
      intro b hb
      cases hb
    · intro hlt
      obtain ⟨hmod,hstruct⟩ := hunit (fun _ => none) _ _ _ rfl rfl hlt
      exact ⟨congrArg (Placement.mk · 0 0) hmod.symm,hstruct⟩

def limit (d : FieldDecl τ × LaidField) : ℕ := d.2.offset + LayoutType.size d.1.type

structure SameUnit (d e : FieldDecl τ × LaidField) : Prop where
  left : d.1.bitCount ≠ 0
  right : e.1.bitCount ≠ 0
  type : d.1.type = e.1.type
  offset : d.2.offset = e.2.offset
  llvmIndex : d.2.llvmIndex = e.2.llvmIndex

def Apart (d e : FieldDecl τ × LaidField) : Prop := limit d ≤ e.2.offset ∨ SameUnit d e

def LlvmMember (fields : List (LlvmFieldType τ)) (type : τ) (offset : ℕ)
    (llvmIndex : Option ℕ) : Prop :=
  ∃ i, llvmIndex = some (i % 2 ^ 32) ∧ fields[i]? = some (.member type) ∧
    llvmSize (fields.take i) = offset

structure Laid (hasCodeGen : Bool) (s : LlvmStructType τ)
    (done : List (FieldDecl τ × LaidField)) : Prop where
  aligned : ∀ d ∈ done, effectiveAlignment s.fieldAlignment d.1.type ∣ d.2.offset
  inside : ∀ d ∈ done, limit d ≤ s.fieldSize
  apart : done.Pairwise Apart
  last : ∀ last ∈ s.lastBitField, effectiveAlignment s.fieldAlignment last.type ∣ last.offset ∧
    last.offset + LayoutType.size last.type = s.fieldSize ∧
    (hasCodeGen = true →
      LlvmMember s.llvmFieldTypeArray last.type last.offset s.lastLlvmIndex) ∧
    ∀ d ∈ done, limit d ≤ last.offset ∨ d.1.bitCount ≠ 0 ∧ d.1.type = last.type ∧
      d.2.offset = last.offset ∧ d.2.llvmIndex = s.lastLlvmIndex
  llvm : hasCodeGen = true → llvmSize s.llvmFieldTypeArray = s.fieldSize ∧
    ∀ d ∈ done, LlvmMember s.llvmFieldTypeArray d.1.type d.2.offset d.2.llvmIndex

variable {done : List (FieldDecl τ × LaidField)}

omit [DecidableEq τ] in
theorem Laid.create (hsize : s.fieldSize = 0) (hlast : s.lastBitField = none)
    (hfields : s.llvmFieldTypeArray = []) : Laid hasCodeGen s [] := by
  constructor
  · simp
  · simp
  · exact List.Pairwise.nil
  · intro last h
    rw [hlast] at h
    cases h
  · intro _
    rw [hsize,hfields]
    exact ⟨rfl,by simp⟩

omit [DecidableEq τ] in
theorem LlvmMember.append {llvmFields : List (LlvmFieldType τ)} {type : τ} {offset : ℕ}
    {llvmIndex : Option ℕ} (h : LlvmMember llvmFields type offset llvmIndex)
    (added : List (LlvmFieldType τ)) : LlvmMember (llvmFields ++ added) type offset llvmIndex := by
  obtain ⟨i,hindex,hget,hsize⟩ := h
  have hlt : i < llvmFields.length := (List.getElem?_eq_some_iff.mp hget).1
  refine ⟨i,hindex,?_,?_⟩
  · rw [List.getElem?_append_left hlt]
    exact hget
  · rw [List.take_append_of_le_length (Nat.le_of_lt hlt)]
    exact hsize

omit [DecidableEq τ] in
theorem LlvmAdded.member {llvmFields llvmFields' : List (LlvmFieldType τ)} {type : τ}
    {offset : ℕ} {llvmIndex : Option ℕ} (hle : llvmSize llvmFields ≤ offset)
    (h : LlvmAdded llvmFields (llvmSize llvmFields) offset type llvmIndex llvmFields') :
    llvmSize llvmFields' = offset + LayoutType.size type ∧
      LlvmMember llvmFields' type offset llvmIndex := by
  obtain ⟨padding,rfl,hpadding,hindex⟩ := h.added
  have hoffset : llvmSize (llvmFields ++ padding) = offset := by
    rw [llvmSize_append,hpadding]
    omega
  constructor
  · rw [llvmSize_append,hoffset,llvmSize_member]
  · refine ⟨(llvmFields ++ padding).length,hindex,?_,?_⟩
    · simp
    · rw [List.take_left]
      exact hoffset

omit [DecidableEq τ] in
theorem forall_mem_snoc {P : FieldDecl τ × LaidField → Prop} {e : FieldDecl τ × LaidField}
    (h : ∀ d ∈ done, P d) (he : P e) : ∀ d ∈ done ++ [e], P d := by
  intro d hd
  cases List.mem_append.mp hd with
  | inl hd => exact h d hd
  | inr hd =>
    cases List.mem_singleton.mp hd
    exact he

omit [DecidableEq τ] in
theorem Laid.apart_snoc (h : Laid hasCodeGen s done) {e : FieldDecl τ × LaidField}
    (he : ∀ d ∈ done, Apart d e) : (done ++ [e]).Pairwise Apart := by
  apply List.pairwise_append.mpr
  refine ⟨h.apart,List.pairwise_singleton _ _,?_⟩
  intro d hd e' he'
  cases List.mem_singleton.mp he'
  exact he d hd

omit [DecidableEq τ] in
theorem Laid.merge (h : Laid hasCodeGen s done) (hm : Merges s field p s') :
    Laid hasCodeGen s' (done ++ [(field,p)]) := by
  obtain ⟨hbits,last,bitOffset,hlast,htype,rfl,rfl⟩ := hm
  obtain ⟨haligned,hlimit,hllvm,hunit⟩ := h.last last hlast
  rw [htype] at haligned hlimit hllvm
  constructor
  · exact forall_mem_snoc h.aligned haligned
  · exact forall_mem_snoc h.inside (Nat.le_of_eq hlimit)
  · apply h.apart_snoc
    intro d hd
    cases hunit d hd with
    | inl hbefore => exact Or.inl hbefore
    | inr hsame =>
      obtain ⟨hd,hdtype,hdoffset,hdindex⟩ := hsame
      exact Or.inr ⟨hd,hbits,hdtype.trans htype,hdoffset,hdindex⟩
  · intro last' hlast'
    cases hlast'
    refine ⟨haligned,hlimit,hllvm,?_⟩
    apply forall_mem_snoc
    · intro d hd
      rw [← htype]
      exact hunit d hd
    · exact Or.inr ⟨hbits,rfl,rfl,rfl⟩
  · intro hcode
    obtain ⟨hsize,hmembers⟩ := h.llvm hcode
    exact ⟨hsize,forall_mem_snoc hmembers (hllvm hcode)⟩

omit [DecidableEq τ] in
theorem Laid.«open» (h : Laid hasCodeGen s done) (hround : RoundsUp align)
    (ho : Opens align hasCodeGen s field p s')
    (hlt : newOffset align s.fieldAlignment s.fieldSize field.type + LayoutType.size field.type <
      2 ^ 64) : Laid hasCodeGen s' (done ++ [(field,p)]) := by
  have hoffset : p.offset = newOffset align s.fieldAlignment s.fieldSize field.type :=
    ho.offset.trans (Nat.mod_eq_of_lt (by omega))
  have hrounding := hround.rounding (τ := τ) s.fieldAlignment_pow
  have hle : s.fieldSize ≤ p.offset := by
    rw [hoffset]
    exact hrounding.le s.fieldSize field.type
  have haligned : effectiveAlignment s.fieldAlignment field.type ∣ p.offset := by
    rw [hoffset]
    exact hrounding.dvd s.fieldSize field.type
  have hsize : s'.fieldSize = p.offset + LayoutType.size field.type := by
    rw [ho.fieldSize,hoffset]
    exact Nat.mod_eq_of_lt hlt
  have hbefore : ∀ d ∈ done, limit d ≤ p.offset := by
    intro d hd
    exact Nat.le_trans (h.inside d hd) hle
  have hmember : hasCodeGen = true → llvmSize s'.llvmFieldTypeArray = s'.fieldSize ∧
      LlvmMember s'.llvmFieldTypeArray field.type p.offset p.llvmIndex := by
    intro hcode
    have hadded := ho.llvm hcode
    rw [← (h.llvm hcode).1] at hadded hle
    rw [hsize]
    exact hadded.member hle
  constructor
  · rw [ho.fieldAlignment]
    exact forall_mem_snoc h.aligned haligned
  · rw [hsize]
    apply forall_mem_snoc
    · intro d hd
      exact Nat.le_trans (hbefore d hd) (Nat.le_add_right _ _)
    · exact Nat.le_refl _
  · apply h.apart_snoc
    intro d hd
    exact Or.inl (hbefore d hd)
  · intro last hlast
    obtain ⟨hbits,htype,hlastOffset,hindex⟩ := ho.last last hlast
    rw [ho.fieldAlignment,htype,hlastOffset,hindex]
    refine ⟨haligned,hsize.symm,fun hcode => (hmember hcode).2,?_⟩
    apply forall_mem_snoc
    · intro d hd
      exact Or.inl (hbefore d hd)
    · exact Or.inr ⟨hbits,rfl,rfl,rfl⟩
  · intro hcode
    refine ⟨(hmember hcode).1,forall_mem_snoc ?_ (hmember hcode).2⟩
    intro d hd
    obtain ⟨padding,hfields,_,_⟩ := (ho.llvm hcode).added
    rw [hfields,List.append_assoc]
    exact ((h.llvm hcode).2 d hd).append _

theorem Run.laid (hround : RoundsUp align) (h : Run align hasCodeGen s fields ps s') :
    ∀ {done : List (FieldDecl τ × LaidField)} {qs : List Placement} {t : StructType τ},
      Laid hasCodeGen s done → s.toStructType.layoutFields align fields = some (qs,t) →
      t.fieldSize < 2 ^ 64 →
      Laid hasCodeGen s' (done ++ fields.zip ps) ∧ t = s'.toStructType := by
  induction h with
  | nil s =>
    intro done qs t hlaid ht _
    cases ht
    rw [List.zip_nil_left,List.append_nil]
    exact ⟨hlaid,rfl⟩
  | @cons s s₁ s₂ field p fields ps hp _ ih =>
    intro done qs t hlaid ht hlt
    obtain ⟨q,t₁,hq,hcases⟩ := layoutMember_cases hp
    rw [StructType.layoutFields,hq] at ht
    dsimp only at ht
    split at ht
    · cases ht
    · rename_i qs₁ t₂ hrest
      cases ht
      have hle := (StructType.layoutFields_grows hround hrest).1
      have hstep : Laid hasCodeGen s₁ (done ++ [(field,p)]) ∧ t₁ = s₁.toStructType := by
        cases hcases with
        | inl hm => exact ⟨hlaid.merge hm.1,hm.2.2⟩
        | inr ho =>
          obtain ⟨hopens,hsize,hexact⟩ := ho
          have ht₁ : t₁.fieldSize < 2 ^ 64 := Nat.lt_of_le_of_lt hle hlt
          rw [hsize] at ht₁
          exact ⟨hlaid.«open» hround hopens ht₁,(hexact (by rwa [hsize])).2⟩
      obtain ⟨hlaid₁,rfl⟩ := hstep
      have hfinal := ih hlaid₁ hrest hlt
      rw [List.append_assoc] at hfinal
      exact hfinal

omit [DecidableEq τ] in
theorem Opens.alignment_pow (h : Opens align hasCodeGen s field p s')
    (hpow : ∃ k, s.alignment = 2 ^ k) :
    (∃ k, s'.alignment = 2 ^ k) ∧ s.alignment ∣ s'.alignment ∧
      effectiveAlignment s.fieldAlignment field.type ∣ s'.alignment := by
  rw [h.alignment]
  exact StructType.dvd_max_pow hpow (StructType.effectiveAlignment_pow s.fieldAlignment_pow field.type)

theorem Run.alignment_pow (h : Run align hasCodeGen s fields ps s') :
    (∃ k, s.alignment = 2 ^ k) →
      (∃ k, s'.alignment = 2 ^ k) ∧ s.alignment ∣ s'.alignment := by
  induction h with
  | nil s =>
    intro hpow
    exact ⟨hpow,Nat.dvd_refl _⟩
  | @cons s s₁ s₂ field p fields ps hp _ ih =>
    intro hpow
    obtain ⟨q,t₁,_,hcases⟩ := layoutMember_cases hp
    cases hcases with
    | inl hm =>
      obtain ⟨_,last,bitOffset,_,_,_,rfl⟩ := hm.1
      exact ih hpow
    | inr ho =>
      obtain ⟨hpow₁,hdvd,_⟩ := ho.1.alignment_pow hpow
      obtain ⟨hpow₂,hdvd₂⟩ := ih hpow₁
      exact ⟨hpow₂,Nat.dvd_trans hdvd hdvd₂⟩

/-- A run whose members end below `2 ^ 64` has no sum that reaches it. -/
theorem Run.bounded (hround : RoundsUp align) (h : Run align hasCodeGen s fields ps s')
    {size : ℕ} (hsize : size < 2 ^ 64) :
    (∃ k, s.alignment = 2 ^ k) → s.fieldSize ≤ size → s'.alignment ∣ size →
      (∀ d ∈ fields.zip ps, limit d ≤ size) →
      (∃ qs, s.toStructType.layoutFields align fields = some (qs,s'.toStructType)) ∧
        s'.fieldSize ≤ size := by
  induction h with
  | nil s =>
    intro _ hle _ _
    exact ⟨⟨[],rfl⟩,hle⟩
  | @cons s s₁ s₂ field p fields ps hp hs ih =>
    intro hpow hle hdvd hlimits
    obtain ⟨q,t₁,hq,hcases⟩ := layoutMember_cases hp
    have hlimit : limit (field,p) ≤ size := hlimits (field,p) List.mem_cons_self
    have hlater : ∀ d ∈ fields.zip ps, limit d ≤ size :=
      fun d hd => hlimits d (List.mem_cons_of_mem _ hd)
    have hstep : t₁ = s₁.toStructType ∧ s₁.fieldSize ≤ size ∧
        ∃ k, s₁.alignment = 2 ^ k := by
      cases hcases with
      | inl hm =>
        obtain ⟨⟨_,last,bitOffset,_,_,_,rfl⟩,_,ht⟩ := hm
        exact ⟨ht,hle,hpow⟩
      | inr ho =>
        obtain ⟨hopens,ht,hexact⟩ := ho
        obtain ⟨hpow₁,_,heff⟩ := hopens.alignment_pow hpow
        obtain ⟨k,hk⟩ :=
          StructType.effectiveAlignment_pow s.fieldAlignment_pow field.type
        have hdvd₁ : s₁.alignment ∣ size := Nat.dvd_trans (hs.alignment_pow hpow₁).2 hdvd
        have hnew : newOffset align s.fieldAlignment s.fieldSize field.type ≤ size := by
          unfold newOffset
          rw [hk] at heff ⊢
          exact hround.le_of_dvd hle (Nat.dvd_trans heff hdvd₁)
        have hoffset := hopens.offset
        rw [Nat.mod_eq_of_lt (by omega)] at hoffset
        have hend : t₁.fieldSize ≤ size := by
          rw [ht,← hoffset]
          exact hlimit
        have heq := (hexact (by omega)).2
        refine ⟨heq,?_,hpow₁⟩
        rw [heq] at hend
        exact hend
    obtain ⟨rfl,hle₁,hpow₁⟩ := hstep
    obtain ⟨⟨qs,hqs⟩,hfinal⟩ := ih hpow₁ hle₁ hdvd hlater
    exact ⟨⟨q :: qs,by rw [StructType.layoutFields,hq]; simp only [hqs]⟩,hfinal⟩

end LlvmStructType
end Jancy.Ct
