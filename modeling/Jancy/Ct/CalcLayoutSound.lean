import Jancy.Ct.CalcLayoutRun
import Jancy.Rtl.BitFieldAgreement

/-! When `StructType::calcLayout` lays out bases and fields the way they are meant to be: if and
only if no sum of sizes reaches `2 ^ 64`, and a size from an extension library fits. -/
namespace Jancy.Ct

/-- The size of an opaque class, from an extension library. -/
def StructTypeKind.opaqueSize : StructTypeKind → Option ℕ
  | .ifaceStruct true (some typeInfo) => some typeInfo.toNat
  | _ => none

namespace LlvmStructType

open StructType (RoundsUp effectiveAlignment)

variable {τ : Type} [MemberType τ] [DecidableEq τ] {align : ℕ → ℕ → ℕ} {hasCodeGen : Bool}
  {kind : StructTypeKind} {s s' : LlvmStructType τ} {size : ℕ}

/-- A struct before its layout. -/
structure Started (s : LlvmStructType τ) : Prop where
  fieldSize : s.fieldSize = 0
  lastBitField : s.lastBitField = none
  llvmFieldTypeArray : s.llvmFieldTypeArray = []
  alignment : ∃ k, s.alignment = 2 ^ k

omit [MemberType τ] [DecidableEq τ] in
theorem started_create (config : PragmaConfig) : (create config : LlvmStructType τ).Started :=
  ⟨rfl,rfl,rfl,0,rfl⟩

omit [MemberType τ] [DecidableEq τ] in

structure SoundLayout (hasCodeGen : Bool) (members : List (FieldDecl τ)) (ps : List LaidField)
    (s : LlvmStructType τ) (size : ℕ) : Prop where
  complete : ps.length = members.length
  aligned : ∀ d ∈ members.zip ps,
    min (LayoutType.alignment d.1.type) s.fieldAlignment ∣ d.2.offset
  ordered : (members.zip ps).Pairwise fun d e => d.2.offset ≤ e.2.offset
  apart : (members.zip ps).Pairwise Apart
  inside : ∀ d ∈ members.zip ps, limit d ≤ size
  size_dvd : s.alignment ∣ size
  llvm : hasCodeGen = true → llvmSize s.llvmFieldTypeArray = size ∧
    ∀ d ∈ members.zip ps, LlvmMember s.llvmFieldTypeArray d.1.type d.2.offset d.2.llvmIndex

/-- Sizes and padding add up below `2 ^ 64`, and an opaque class is given a multiple of the
alignment. -/
def Fits (align : ℕ → ℕ → ℕ) (s : LlvmStructType τ) (kind : StructTypeKind)
    (members : List (FieldDecl τ)) : Prop :=
  ∃ ps t, s.toStructType.layoutFields align members = some (ps,t) ∧ t.size align < 2 ^ 64 ∧
    ∀ n ∈ kind.opaqueSize, t.alignment ∣ n

theorem run_of_layoutBaseTypes {types : List τ} :
    ∀ {s : LlvmStructType τ} {before : List τ} {ps : List LaidField},
      s.layoutBaseTypes align hasCodeGen before types = .ok (ps,s') →
      Run align hasCodeGen s (types.map FieldDecl.ofBase) ps s' := by
  induction types with
  | nil =>
    intro s before ps h
    cases h
    exact .nil _
  | cons type types ih =>
    intro s before ps h
    simp only [layoutBaseTypes,bind,Except.bind] at h
    split at h
    · cases h
    · rename_i laid hbase
      split at h
      · cases h
      · rename_i rest hrest
        cases h
        have hmember : s.layoutMember align hasCodeGen (.ofBase type) = .ok laid := by
          unfold layoutBaseType at hbase
          split at hbase
          · cases hbase
          · split at hbase
            · cases hbase
            · exact hbase
        exact .cons hmember (ih hrest)

theorem layoutMember_of_layoutField {field : FieldDecl τ} {laid : LaidField × LlvmStructType τ}
    (h : s.layoutField align hasCodeGen kind field = .ok laid) :
    s.layoutMember align hasCodeGen field = .ok laid := by
  unfold layoutField at h
  split at h
  · cases h
  · exact h

theorem run_of_layoutFields {fields : List (FieldDecl τ)} :
    ∀ {s : LlvmStructType τ} {ps : List LaidField},
      s.layoutFields align hasCodeGen kind fields = .ok (ps,s') →
      Run align hasCodeGen s fields ps s' := by
  induction fields with
  | nil =>
    intro s ps h
    cases h
    exact .nil _
  | cons field fields ih =>
    intro s ps h
    simp only [layoutFields,bind,Except.bind] at h
    split at h
    · cases h
    · rename_i laid hfield
      split at h
      · cases h
      · rename_i rest hrest
        cases h
        exact .cons (layoutMember_of_layoutField hfield) (ih hrest)

def finished (hasCodeGen : Bool) (s : LlvmStructType τ) (size : ℕ) : LlvmStructType τ :=
  if hasCodeGen && decide (size > s.fieldSize) then s.addLlvmPadding (size - s.fieldSize) else s

variable {ps : List LaidField}

theorem run_of_calcLayout {baseTypes : List τ} {fields : List (FieldDecl τ)}
    (h : s.calcLayout align hasCodeGen kind baseTypes fields = .ok (ps,s',size)) :
    ∃ s₁, Run align hasCodeGen s (baseTypes.map FieldDecl.ofBase ++ fields) ps s₁ ∧
      s₁.finalSize align kind = .ok size ∧ s' = s₁.finished hasCodeGen size := by
  simp only [calcLayout,bind,Except.bind] at h
  split at h
  · cases h
  · rename_i bases hbases
    split at h
    · cases h
    · rename_i laid hfields
      split at h
      · cases h
      · rename_i total htotal
        have hrun := (run_of_layoutBaseTypes hbases).append (run_of_layoutFields hfields)
        split at h <;> rename_i hpadding <;> cases h
        · exact ⟨laid.2,hrun,htotal,(if_pos hpadding).symm⟩
        · exact ⟨laid.2,hrun,htotal,(if_neg hpadding).symm⟩

omit [MemberType τ] [DecidableEq τ] in
theorem finished_toStructType (s : LlvmStructType τ) (size : ℕ) :
    (s.finished hasCodeGen size).toStructType = s.toStructType := by
  unfold finished
  split <;> rfl

omit [DecidableEq τ] in
theorem finished_llvm (s : LlvmStructType τ) (hle : s.fieldSize ≤ size)
    (h : llvmSize s.llvmFieldTypeArray = s.fieldSize) :
    llvmSize (s.finished true size).llvmFieldTypeArray = size ∧
      ∃ padding, (s.finished true size).llvmFieldTypeArray = s.llvmFieldTypeArray ++ padding := by
  unfold finished
  rw [Bool.true_and]
  split
  · refine ⟨?_,_,rfl⟩
    rw [addLlvmPadding,llvmSize_append,llvmSize_padding,h]
    omega
  · rename_i hsize
    rw [decide_eq_true_eq] at hsize
    exact ⟨by omega,[],(List.append_nil _).symm⟩

omit [MemberType τ] [DecidableEq τ] in
theorem finalSize_cases (h : s.finalSize align kind = .ok size) :
    kind.opaqueSize = none ∧ size = alignSize align s.fieldSize s.alignment ∨
      kind.opaqueSize = some size ∧ alignSize align s.fieldSize s.alignment ≤ size ∧
        size < 2 ^ 64 := by
  unfold finalSize at h
  dsimp only at h
  split at h
  · cases h
    exact Or.inl ⟨rfl,rfl⟩
  · cases h
    exact Or.inl ⟨rfl,rfl⟩
  · cases h
  · rename_i typeInfo
    split at h
    · cases h
    · rename_i hle
      cases h
      exact Or.inr ⟨rfl,Nat.le_of_not_lt hle,typeInfo.toNat_lt⟩

omit [MemberType τ] [DecidableEq τ] in
theorem finalSize_lt (h : s.finalSize align kind = .ok size) : size < 2 ^ 64 := by
  cases finalSize_cases h with
  | inl hown =>
    rw [hown.2]
    exact Nat.mod_lt _ (by decide)
  | inr hgiven => exact hgiven.2.2

variable {members : List (FieldDecl τ)}

theorem Run.length_eq (h : Run align hasCodeGen s members ps s') : ps.length = members.length := by
  induction h with
  | nil => rfl
  | cons _ _ ih => rw [List.length_cons,List.length_cons,ih]

omit [DecidableEq τ] in
theorem Apart.offset_le {d e : FieldDecl τ × LaidField} (h : Apart d e) :
    d.2.offset ≤ e.2.offset := by
  cases h with
  | inl hbefore => exact Nat.le_trans (Nat.le_add_right _ _) hbefore
  | inr hunit => exact Nat.le_of_eq hunit.offset

theorem Run.sound (hround : RoundsUp align) (hs : s.Started)
    (h : Run align hasCodeGen s members ps s') (hsize : s'.finalSize align kind = .ok size)
    (hfits : s.Fits align kind members) :
    SoundLayout hasCodeGen members ps (s'.finished hasCodeGen size) size := by
  obtain ⟨qs,t,ht,hbound,hblind⟩ := hfits
  obtain ⟨k,hk⟩ := (StructType.layoutFields_grows hround ht).2 hs.alignment
  have hle : t.fieldSize ≤ t.size align := by
    unfold StructType.size
    rw [hk]
    exact hround.le t.fieldSize k
  have hdvd : t.alignment ∣ t.size align := by
    unfold StructType.size
    rw [hk]
    exact hround.dvd t.fieldSize k
  obtain ⟨hlaid,rfl⟩ := h.laid hround
    (Laid.create hs.fieldSize hs.lastBitField hs.llvmFieldTypeArray) ht (by omega)
  rw [List.nil_append] at hlaid
  have hown : alignSize align s'.fieldSize s'.alignment = s'.toStructType.size align :=
    Nat.mod_eq_of_lt hbound
  have hfinal : s'.fieldSize ≤ size ∧ s'.alignment ∣ size := by
    cases finalSize_cases hsize with
    | inl hcase =>
      rw [hcase.2,hown]
      exact ⟨hle,hdvd⟩
    | inr hcase =>
      obtain ⟨hgiven,hle',_⟩ := hcase
      rw [hown] at hle'
      exact ⟨Nat.le_trans hle hle',hblind size hgiven⟩
  have hstruct : (s'.finished hasCodeGen size).toStructType = s'.toStructType :=
    finished_toStructType s' size
  constructor
  · exact h.length_eq
  · intro d hd
    have haligned := hlaid.aligned d hd
    have heff : effectiveAlignment s'.fieldAlignment d.1.type =
        min (LayoutType.alignment d.1.type) s'.fieldAlignment := by
      unfold effectiveAlignment
      split <;> omega
    rw [hstruct,← heff]
    exact haligned
  · exact hlaid.apart.imp Apart.offset_le
  · exact hlaid.apart
  · intro d hd
    exact Nat.le_trans (hlaid.inside d hd) hfinal.1
  · rw [hstruct]
    exact hfinal.2
  · intro hcode
    subst hcode
    obtain ⟨htotal,hmembers⟩ := hlaid.llvm rfl
    obtain ⟨hsum,padding,hfields⟩ := finished_llvm s' hfinal.1 htotal
    refine ⟨hsum,?_⟩
    intro d hd
    rw [hfields]
    exact (hmembers d hd).append padding

theorem Run.fits (hround : RoundsUp align) (hs : s.Started)
    (h : Run align hasCodeGen s members ps s') (hsize : s'.finalSize align kind = .ok size)
    (hsound : SoundLayout hasCodeGen members ps (s'.finished hasCodeGen size) size) :
    s.Fits align kind members := by
  have hlt := finalSize_lt hsize
  have hdvd := hsound.size_dvd
  rw [finished_toStructType] at hdvd
  have hstart : s.fieldSize ≤ size := by
    rw [hs.fieldSize]
    exact Nat.zero_le _
  obtain ⟨⟨qs,hqs⟩,hle⟩ := h.bounded hround hlt hs.alignment hstart hdvd hsound.inside
  obtain ⟨k,hk⟩ := (h.alignment_pow hs.alignment).1
  refine ⟨qs,s'.toStructType,hqs,?_,?_⟩
  · unfold StructType.size
    rw [hk] at hdvd ⊢
    exact Nat.lt_of_le_of_lt (hround.le_of_dvd hle hdvd) hlt
  · intro n hn
    cases finalSize_cases hsize with
    | inl hown =>
      rw [hown.1] at hn
      cases hn
    | inr hgiven =>
      rw [hgiven.1] at hn
      cases hn
      exact hdvd

/-- A layout is sound if and only if its sums stay below `2 ^ 64` and a given size fits. -/
theorem calcLayout_sound_iff (hround : RoundsUp align) (hs : s.Started) (baseTypes : List τ)
    (fields : List (FieldDecl τ)) {ps : List LaidField}
    (h : s.calcLayout align hasCodeGen kind baseTypes fields = .ok (ps,s',size)) :
    SoundLayout hasCodeGen (baseTypes.map FieldDecl.ofBase ++ fields) ps s' size ↔
      s.Fits align kind (baseTypes.map FieldDecl.ofBase ++ fields) := by
  obtain ⟨s₁,hrun,hsize,rfl⟩ := run_of_calcLayout h
  exact ⟨hrun.fits hround hs hsize,hrun.sound hround hs hsize⟩

end LlvmStructType

/-- Integers, arrays of `char`, and structs that are laid out already. -/
inductive SampleType where
  | int (type : IntType)
  | charArray (elementCount : ℕ)
  | struct (size : ℕ)
  deriving DecidableEq, Repr

instance : MemberType SampleType where
  size
    | .int type => type.size
    | .charArray elementCount => elementCount
    | .struct size => size
  alignment
    | .int type => type.size
    | .charArray _ => 1
    | .struct _ => 4
  isInteger
    | .int _ => true
    | _ => false
  size_le t h := by
    cases t with
    | int type => cases type <;> decide
    | charArray => cases h
    | struct => cases h
  alignment_pow t := by
    cases t with
    | int type => exact LayoutType.alignment_pow type
    | charArray => exact ⟨0,rfl⟩
    | struct => exact ⟨2,rfl⟩
  isDerivable
    | .struct _ => true
    | _ => false
  isClass _ := false

def SampleType.bits (type : IntType) (bitCount : ℕ) : FieldDecl SampleType :=
  ⟨.int type,bitCount,⟨false,0⟩,fun _ => rfl⟩

namespace LlvmStructType

open Rtl (alignUp alignUp_roundsUp)

/-- A base, a character, two bit fields in one unit, and an array, under a pack factor of 2. -/
def sampleFields : List (FieldDecl SampleType) :=
  [.ofBase (.int .int8),SampleType.bits .int32 3,SampleType.bits .int32 5,.ofBase (.charArray 3)]

def packTwo : PragmaConfig := ⟨2,1,rfl⟩

def sampleBases : List SampleType := [.struct 12]

theorem sample_sound :
    ∃ ps s', (create packTwo).calcLayout alignUp true .normal sampleBases sampleFields =
        .ok (ps,s',22) ∧
      SoundLayout true (sampleBases.map FieldDecl.ofBase ++ sampleFields) ps s' 22 := by
  have hfits : (create packTwo).Fits alignUp .normal
      (sampleBases.map FieldDecl.ofBase ++ sampleFields) := by
    refine ⟨_,_,rfl,?_,?_⟩
    · decide
    · intro n hn
      cases hn
  refine ⟨_,_,rfl,?_⟩
  exact (calcLayout_sound_iff alignUp_roundsUp (started_create packTwo) sampleBases sampleFields
    rfl).mpr hfits

def hugeFields : List (FieldDecl SampleType) :=
  [.ofBase (.charArray (2 ^ 63 - 1)),.ofBase (.charArray (2 ^ 63 - 1)),.ofBase (.charArray 4)]

/-- The sizes of the fields add up to 2 in a `size_t`. -/
theorem not_sound_huge :
    ∃ ps s', (create .reset).calcLayout alignUp true .normal [] hugeFields = .ok (ps,s',2) ∧
      ¬ SoundLayout true hugeFields ps s' 2 := by
  refine ⟨_,_,rfl,?_⟩
  intro h
  have hinside := h.inside _ List.mem_cons_self
  revert hinside
  decide

end LlvmStructType
end Jancy.Ct
