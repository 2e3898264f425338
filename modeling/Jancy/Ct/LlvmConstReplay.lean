import Jancy.Ct.LlvmConst

/-! The struct builder replays the layout of the struct. Without shared storage units and without a
sum that reaches `2 ^ 64`, it takes the steps of the layout. -/
namespace Jancy.Ct

theorem length_slice {p : List UInt8} {offset size : ℕ} (h : offset + size ≤ p.length) :
    (slice p offset size).length = size := by
  unfold slice
  rw [List.length_take,List.length_drop]
  omega

theorem slice_all (p : List UInt8) : slice p 0 p.length = p := List.take_length

theorem take_append_slice (p : List UInt8) (offset size : ℕ) :
    p.take offset ++ slice p offset size = p.take (offset + size) := List.take_add.symm

theorem getElem?_slice (p : List UInt8) {offset size i : ℕ} (h : i < size) :
    (slice p offset size)[i]? = p[offset + i]? := by
  unfold slice
  rw [List.getElem?_take_of_lt h,List.getElem?_drop]

theorem readBytes_eq {p : List UInt8} {offset size : ℕ} (h : offset + size ≤ p.length) :
    readBytes p offset size = .ok (slice p offset size) := if_pos h

theorem readBytes_ok {p data : List UInt8} {offset size : ℕ}
    (h : readBytes p offset size = .ok data) :
    offset + size ≤ p.length ∧ data = slice p offset size := by
  unfold readBytes at h
  split at h
  · rename_i hle
    cases h
    exact ⟨hle,rfl⟩
  · cases h

theorem slice_append_middle {before image after : List UInt8} :
    slice (before ++ image ++ after) before.length image.length = image := by
  unfold slice
  rw [List.append_assoc,List.drop_left,List.take_left]

namespace LlvmConst

theorem getData_eq {elementCount size : ℕ} {elementType : LlvmType} {data : List UInt8}
    (hsize : elementSize elementType = some size) (hdata : data.length = elementCount * size) :
    getData (.array elementCount elementType) data = .ok ⟨.array elementCount elementType,data⟩ := by
  simp [getData,hsize,hdata]

theorem getData_ok {elementCount : ℕ} {elementType : LlvmType} {data : List UInt8} {c : LlvmConst}
    (h : getData (.array elementCount elementType) data = .ok c) :
    c = ⟨.array elementCount elementType,data⟩ ∧
      ∃ size, elementSize elementType = some size ∧ data.length = elementCount * size := by
  unfold getData at h
  dsimp only at h
  split at h
  · cases h
  · rename_i size hsize
    split at h
    · rename_i hdata
      cases h
      exact ⟨rfl,size,hsize,hdata⟩
    · cases h

end LlvmConst

namespace LlvmStructType

variable {τ : Type} [LayoutType τ] {align : ℕ → ℕ → ℕ}

open StructType (RoundsUp newOffset)

def paddingIf (fieldSize offset : ℕ) : List (LlvmFieldType τ) :=
  if offset > fieldSize then [.padding (offset - fieldSize)] else []

omit [LayoutType τ] in
theorem addLlvmField_fields (s : LlvmStructType τ) (offset : ℕ) (type : τ) :
    (s.addLlvmField true offset type).2.llvmFieldTypeArray =
      s.llvmFieldTypeArray ++ (paddingIf s.fieldSize offset ++ [.member type]) := by
  unfold addLlvmField paddingIf addLlvmPadding
  simp only [if_true]
  split
  · exact List.append_assoc _ _ _
  · rw [List.nil_append]

variable [DecidableEq τ] {s s' : LlvmStructType τ} {field : FieldDecl τ} {p : LaidField}
  {fields : List (FieldDecl τ)} {ps : List LaidField}

omit [DecidableEq τ] in
theorem withAlignment_fieldSize (s : LlvmStructType τ) (type : τ) :
    (s.withAlignment align type).fieldSize = s.fieldSize := by
  unfold withAlignment StructType.getFieldOffset
  dsimp only
  split <;> split <;> rfl

theorem layoutMember_fields (h : s.layoutMember align true field = .ok (p,s')) :
    s'.llvmFieldTypeArray = s.llvmFieldTypeArray ∨
      s'.llvmFieldTypeArray =
        s.llvmFieldTypeArray ++ (paddingIf s.fieldSize p.offset ++ [.member field.type]) := by
  have hunit (offset : ℕ) := addLlvmField_fields (s.withAlignment align field.type) offset field.type
  simp only [withAlignment_fieldSize] at hunit
  unfold layoutMember at h
  split at h
  · unfold layoutBitField at h
    split at h
    · cases h
    · rcases hmerge : s.toStructType.mergeBitField field with ⟨_ | last,bitOffset⟩
      · simp only [hmerge] at h
        cases h
        exact Or.inr (hunit _)
      · simp only [hmerge] at h
        cases h
        exact Or.inl rfl
  · cases h
    exact Or.inr (hunit _)

theorem Opens.llvmFields (ho : Opens align true s field p s')
    (h : s.layoutMember align true field = .ok (p,s')) :
    s'.llvmFieldTypeArray =
      s.llvmFieldTypeArray ++ (paddingIf s.fieldSize p.offset ++ [.member field.type]) := by
  cases layoutMember_fields h with
  | inl hsame =>
    obtain ⟨padding,hadded,_,_⟩ := (ho.llvm rfl).added
    have hlength := congrArg List.length (hsame.symm.trans hadded)
    rw [List.length_append,List.length_append,List.length_singleton] at hlength
    omega
  | inr hadded => exact hadded

theorem Run.fields_append (h : Run align true s fields ps s') :
    ∃ rest, s'.llvmFieldTypeArray = s.llvmFieldTypeArray ++ rest := by
  induction h with
  | nil s => exact ⟨[],(List.append_nil _).symm⟩
  | cons hp _ ih =>
    obtain ⟨rest,hrest⟩ := ih
    cases layoutMember_fields hp with
    | inl hsame =>
      rw [hsame] at hrest
      exact ⟨rest,hrest⟩
    | inr hadded =>
      rw [hadded,List.append_assoc] at hrest
      exact ⟨_,hrest⟩

theorem Run.bits_le (h : Run align true s fields ps s') :
    ∀ d ∈ fields.zip ps, d.1.bitCount ≤ LayoutType.size d.1.type * 8 := by
  induction h with
  | nil s => simp
  | @cons s s₁ s₂ field p fields ps hp _ ih =>
    intro d hd
    cases List.mem_cons.mp hd with
    | inr hd => exact ih d hd
    | inl hd =>
      subst hd
      show field.bitCount ≤ LayoutType.size field.type * 8
      unfold layoutMember layoutBitField at hp
      split at hp
      · split at hp
        · cases hp
        · rename_i hfit
          exact Nat.le_of_not_lt hfit
      · rename_i hbits
        omega

omit [LayoutType τ] [DecidableEq τ] in
theorem finished_fields (s : LlvmStructType τ) (size : ℕ) :
    (s.finished true size).llvmFieldTypeArray =
      s.llvmFieldTypeArray ++ paddingIf s.fieldSize size := by
  unfold finished paddingIf addLlvmPadding
  simp only [Bool.true_and,decide_eq_true_eq]
  split
  · rfl
  · rw [List.append_nil]

end LlvmStructType

namespace LlvmPodStruct

open LlvmStructType (paddingIf Run Opens Merges SameUnit layoutMember_cases)
open StructType (RoundsUp newOffset)

def image (b : LlvmPodStruct) : List UInt8 := (b.llvmFieldArray.map LlvmConst.image).flatten

theorem image_append (b : LlvmPodStruct) (field : LlvmConst) :
    (b.append field).image = b.image ++ field.image := by
  simp [image,append]

variable {τ : Type} [MemberType τ] [DecidableEq τ] {align : ℕ → ℕ → ℕ} {m : ConstTypes τ align}
  {p : List UInt8} {b b' : LlvmPodStruct} {f : τ → List UInt8 → Emission}

structure InStep (m : ConstTypes τ align) (p : List UInt8) (b : LlvmPodStruct)
    (fields : List (LlvmFieldType τ)) (fieldSize : ℕ) : Prop where
  offset : b.offset = fieldSize
  llvmIdx : b.llvmIdx = fields.length
  types : b.llvmFieldArray.map LlvmConst.type = fields.map m.elementType
  image : b.image = p.take fieldSize

variable {fields : List (LlvmFieldType τ)} {offset : ℕ}

theorem InStep.create : InStep m p create [] 0 := ⟨rfl,rfl,rfl,rfl⟩

section

variable (h : InStep m p b fields offset)

include h

theorem InStep.next (field : LlvmFieldType τ) (rest : List (LlvmFieldType τ)) :
    ((fields ++ ([field] ++ rest)).map m.elementType)[b.llvmIdx]? = some (m.elementType field) := by
  rw [h.llvmIdx]
  simp

theorem InStep.append (field : LlvmFieldType τ) (size : ℕ) {newOffset : ℕ}
    (hnew : newOffset = offset + size) :
    InStep m p { b.append ⟨m.elementType field,slice p offset size⟩ with offset := newOffset }
      (fields ++ [field]) newOffset := by
  constructor
  · rfl
  · show b.llvmIdx + 1 = _
    rw [h.llvmIdx,List.length_append,List.length_singleton]
  · show (b.llvmFieldArray ++ [_]).map LlvmConst.type = _
    rw [List.map_append,List.map_append,h.types]
    rfl
  · show (b.append ⟨m.elementType field,slice p offset size⟩).image = _
    rw [image_append,h.image,take_append_slice,hnew]

theorem InStep.addPaddingIf (rest : List (LlvmFieldType τ)) {newOffset : ℕ}
    (hle : offset ≤ newOffset) (hp : newOffset ≤ p.length) :
    ∃ b', b.addPaddingIf ((fields ++ (paddingIf offset newOffset ++ rest)).map m.elementType) p
        newOffset = .ok b' ∧
      InStep m p b' (fields ++ paddingIf offset newOffset) newOffset := by
  unfold LlvmPodStruct.addPaddingIf paddingIf
  rw [h.offset,if_neg (Nat.not_lt_of_le hle)]
  cases Nat.eq_or_lt_of_le hle with
  | inl heq =>
    subst heq
    rw [if_pos rfl,if_neg (Nat.lt_irrefl _),List.append_nil]
    exact ⟨b,rfl,h⟩
  | inr hlt =>
    have hsum : newOffset = offset + (newOffset - offset) := by omega
    have hread : offset + (newOffset - offset) ≤ p.length := by omega
    rw [if_neg (Nat.ne_of_gt hlt),if_pos hlt,h.next]
    simp only [ConstTypes.elementType,if_true,readBytes_eq hread]
    have hdata : LlvmConst.getData (.array (newOffset - offset) (.int 8))
        (slice p offset (newOffset - offset)) =
          .ok ⟨.array (newOffset - offset) (.int 8),slice p offset (newOffset - offset)⟩ := by
      apply LlvmConst.getData_eq rfl
      rw [length_slice hread,Nat.mul_one]
    simp only [bind,Except.bind,hdata,pure,Except.pure]
    exact ⟨_,rfl,h.append (.padding (newOffset - offset)) _ hsum⟩

theorem InStep.add (rest : List (LlvmFieldType τ)) {newOffset : ℕ} {type : τ}
    (hle : offset ≤ newOffset) (hp : newOffset + LayoutType.size type ≤ p.length)
    (hlt : p.length < 2 ^ 64) (hf : f type (slice p newOffset (LayoutType.size type)) =
      .ok ⟨m.llvmType type,slice p newOffset (LayoutType.size type)⟩) :
    ∃ b', b.add ((fields ++ ((paddingIf offset newOffset ++ [LlvmFieldType.member type]) ++
        rest)).map m.elementType) p m f newOffset type = .ok b' ∧
      InStep m p b' (fields ++ (paddingIf offset newOffset ++ [.member type]))
        (newOffset + LayoutType.size type) := by
  obtain ⟨b₁,hb₁,hstep⟩ :=
    h.addPaddingIf ([.member type] ++ rest) hle (Nat.le_trans (Nat.le_add_right _ _) hp)
  have hnext := hstep.next (.member type) rest
  rw [List.append_assoc] at hnext
  unfold LlvmPodStruct.add
  rw [List.append_assoc,hb₁]
  simp only [bind,Except.bind,hnext,ConstTypes.elementType,if_true,readBytes_eq hp,hf,pure,
    Except.pure]
  refine ⟨_,rfl,?_⟩
  have hmod : (b₁.offset + LayoutType.size type) % 2 ^ 64 = newOffset + LayoutType.size type := by
    rw [hstep.offset]
    exact Nat.mod_eq_of_lt (by omega)
  have hnew := hstep.append (.member type) (LayoutType.size type) hmod
  rw [hmod,List.append_assoc] at hnew
  rw [hmod]
  exact hnew

end

/-- The last bit field is among the members before. -/
def HasLast (s : LlvmStructType τ) (done : List (FieldDecl τ × LaidField)) : Prop :=
  ∀ last ∈ s.lastBitField, ∃ d ∈ done, d.1.bitCount ≠ 0 ∧ d.1.type = last.type ∧
    d.2.offset = last.offset ∧ d.2.llvmIndex = s.lastLlvmIndex

variable {s s' : LlvmStructType τ}

omit [DecidableEq τ] in
theorem HasLast.open {field : FieldDecl τ} {laid : LaidField}
    (ho : Opens align true s field laid s') (done : List (FieldDecl τ × LaidField)) :
    HasLast s' (done ++ [(field,laid)]) := by
  intro last hlast
  obtain ⟨hbits,htype,hoffset,hindex⟩ := ho.last last hlast
  exact ⟨(field,laid),by simp,hbits,htype.symm,hoffset.symm,hindex.symm⟩

omit [DecidableEq τ] in
theorem HasLast.merge {field : FieldDecl τ} {laid : LaidField}
    {done : List (FieldDecl τ × LaidField)} (h : HasLast s done) (hm : Merges s field laid s') :
    ∃ d ∈ done, SameUnit d (field,laid) := by
  obtain ⟨hbits,last,bitOffset,hlast,htype,rfl,rfl⟩ := hm
  obtain ⟨d,hd,hdbits,hdtype,hdoffset,hdindex⟩ := h last hlast
  exact ⟨d,hd,hdbits,hbits,hdtype.trans htype,hdoffset,hdindex⟩

/-- The constant of a member has the bytes of the member. -/
def Exact (m : ConstTypes τ align) (f : τ → List UInt8 → Emission) (p : List UInt8)
    (d : FieldDecl τ × LaidField) : Prop :=
  f d.1.type (slice p d.2.offset (LayoutType.size d.1.type)) =
    .ok ⟨m.llvmType d.1.type,slice p d.2.offset (LayoutType.size d.1.type)⟩

theorem addMembers_run (hround : RoundsUp align) {members : List (FieldDecl τ)}
    {ps : List LaidField} (h : Run align true s members ps s') (hp : p.length < 2 ^ 64)
    (rest : List (LlvmFieldType τ)) :
    ∀ {done : List (FieldDecl τ × LaidField)} {qs : List Placement} {t : StructType τ}
      {b : LlvmPodStruct},
      s.toStructType.layoutFields align members = some (qs,t) → t.fieldSize ≤ p.length →
      HasLast s done → (done ++ members.zip ps).Pairwise (fun d e => ¬ SameUnit d e) →
      (∀ d ∈ members.zip ps, Exact m f p d) →
      InStep m p b s.llvmFieldTypeArray s.fieldSize →
      ∃ b', b.addMembers ((s'.llvmFieldTypeArray ++ rest).map m.elementType) p m f
          (members.zip ps) = .ok b' ∧
        InStep m p b' s'.llvmFieldTypeArray s'.fieldSize := by
  induction h with
  | nil s =>
    intro done qs t b _ _ _ _ _ hstep
    exact ⟨b,rfl,hstep⟩
  | @cons s s₁ s₂ field laid members ps hlaid hrun ih =>
    intro done qs t b ht hle hlast hunits hexact hstep
    obtain ⟨q,t₁,hq,hcases⟩ := layoutMember_cases hlaid
    rw [StructType.layoutFields,hq] at ht
    dsimp only at ht
    split at ht
    · cases ht
    · rename_i qs₁ t₂ hrest
      cases ht
      have hgrows := (StructType.layoutFields_grows hround hrest).1
      cases hcases with
      | inl hm =>
        obtain ⟨d,hd,hsame⟩ := hlast.merge hm.1
        exact absurd hsame
          ((List.pairwise_append.mp hunits).2.2 d hd (field,laid) List.mem_cons_self)
      | inr ho =>
        obtain ⟨hopens,hsize,hsame⟩ := ho
        obtain ⟨_,rfl⟩ := hsame (by omega)
        have hoffset : laid.offset =
            newOffset align s.fieldAlignment s.fieldSize field.type :=
          hopens.offset.trans (Nat.mod_eq_of_lt (by omega))
        rw [← hoffset] at hsize
        have hbefore : s.fieldSize ≤ laid.offset := by
          rw [hoffset]
          exact StructType.fieldSize_le_newOffset hround s.toStructType field.type
        have hfields := hopens.llvmFields hlaid
        obtain ⟨later,hlater⟩ := hrun.fields_append
        have hinside : laid.offset + LayoutType.size field.type ≤ p.length := by omega
        obtain ⟨b₁,hb₁,hstep₁⟩ := hstep.add (later ++ rest) hbefore hinside hp
          (hexact (field,laid) List.mem_cons_self)
        rw [← hfields,← hsize] at hstep₁
        have hnext : (s₂.llvmFieldTypeArray ++ rest) = s.llvmFieldTypeArray ++
            ((LlvmStructType.paddingIf s.fieldSize laid.offset ++ [.member field.type]) ++
              (later ++ rest)) := by
          rw [hlater,hfields]
          simp only [List.append_assoc]
        obtain ⟨b₂,hb₂,hstep₂⟩ := ih hrest hle (HasLast.open hopens done)
          (by rw [List.append_assoc]; exact hunits)
          (fun d hd => hexact d (List.mem_cons_of_mem _ hd)) hstep₁
        refine ⟨b₂,?_,hstep₂⟩
        rw [← hnext] at hb₁
        show (do
          let b ← b.add _ p m f laid.offset field.type
          b.addMembers _ p m f (members.zip ps)) = Except.ok b₂
        rw [hb₁]
        exact hb₂

end LlvmPodStruct

namespace LaidStruct

open LlvmStructType (Run SameUnit Laid finalSize_cases finalSize_lt limit alignSize)
open StructType (RoundsUp)

variable {τ : Type} [MemberType τ] [DecidableEq τ] {align : ℕ → ℕ → ℕ} (type : LaidStruct τ align)

/-- The sums of the layout stay below `2 ^ 64`. -/
def Fits : Prop :=
  type.start.Fits align .normal (type.baseTypes.map FieldDecl.ofBase ++ type.fields)

/-- No two bit fields are in one storage unit. -/
def UnitsApart : Prop := type.members.Pairwise fun d e => ¬ SameUnit d e

theorem run : ∃ s, Run align true type.start
      (type.baseTypes.map FieldDecl.ofBase ++ type.fields) type.placements s ∧
    type.size = alignSize align s.fieldSize s.alignment ∧ type.laid = s.finished true type.size := by
  obtain ⟨s,hrun,hsize,hlaid⟩ := LlvmStructType.run_of_calcLayout type.calcLayout_eq
  refine ⟨s,hrun,?_,hlaid⟩
  cases finalSize_cases hsize with
  | inl hown => exact hown.2
  | inr hgiven => cases hgiven.1

theorem size_lt : type.size < 2 ^ 64 := by
  obtain ⟨s,_,hsize,_⟩ := type.run
  rw [hsize]
  exact Nat.mod_lt _ (by decide)

variable {type}

theorem Fits.run (hround : RoundsUp align) (h : type.Fits) :
    ∃ s qs, Run align true type.start
        (type.baseTypes.map FieldDecl.ofBase ++ type.fields) type.placements s ∧
      type.laid = s.finished true type.size ∧
      type.start.toStructType.layoutFields align
        (type.baseTypes.map FieldDecl.ofBase ++ type.fields) = some (qs,s.toStructType) ∧
      s.fieldSize ≤ type.size := by
  obtain ⟨s,hrun,hsize,hlaid⟩ := type.run
  obtain ⟨qs,t,ht,hbound,_⟩ := h
  obtain ⟨k,hk⟩ := (StructType.layoutFields_grows hround ht).2 type.started.alignment
  have hle : t.fieldSize ≤ t.size align := by
    unfold StructType.size
    rw [hk]
    exact hround.le t.fieldSize k
  obtain ⟨_,rfl⟩ := hrun.laid hround (Laid.create type.started.fieldSize
    type.started.lastBitField type.started.llvmFieldTypeArray) ht (by omega)
  have hown : alignSize align s.fieldSize s.alignment = s.toStructType.size align :=
    Nat.mod_eq_of_lt hbound
  rw [← hown,← hsize] at hle
  exact ⟨s,qs,hrun,hlaid,ht,hle⟩

theorem Fits.inside (hround : RoundsUp align) (h : type.Fits) {d : FieldDecl τ × LaidField}
    (hd : d ∈ type.members) : limit d ≤ type.size :=
  ((LlvmStructType.calcLayout_sound_iff hround type.started type.baseTypes type.fields
    type.calcLayout_eq).mpr h).inside d hd

theorem pow_dvd_mod {k n : ℕ} (h : 2 ^ k ∣ n) : 2 ^ k ∣ n % 2 ^ 64 := by
  cases Nat.le_total k 64 with
  | inl hle => exact (Nat.dvd_mod_iff (Nat.pow_dvd_pow 2 hle)).mpr h
  | inr hle =>
    rw [Nat.mod_eq_zero_of_dvd (Nat.dvd_trans (Nat.pow_dvd_pow 2 hle) h)]
    exact Nat.dvd_zero _

theorem fits_of_inside (hround : RoundsUp align) (h : ∀ d ∈ type.members, limit d ≤ type.size) :
    type.Fits := by
  obtain ⟨s,hrun,hsize,_⟩ := type.run
  obtain ⟨k,hk⟩ := (hrun.alignment_pow type.started.alignment).1
  have hdvd : s.alignment ∣ type.size := by
    rw [hsize,hk]
    exact pow_dvd_mod (hround.dvd s.fieldSize k)
  have hstart : type.start.fieldSize ≤ type.size := by
    rw [type.started.fieldSize]
    exact Nat.zero_le _
  obtain ⟨⟨qs,hqs⟩,hle⟩ :=
    hrun.bounded hround type.size_lt type.started.alignment hstart hdvd h
  refine ⟨qs,s.toStructType,hqs,?_,?_⟩
  · unfold StructType.size
    rw [hk] at hdvd ⊢
    exact Nat.lt_of_le_of_lt (hround.le_of_dvd hle hdvd) type.size_lt
  · intro n hn
    cases hn

theorem unitsApart_of_before (h : type.members.Pairwise fun d e => limit d ≤ e.2.offset) :
    type.UnitsApart := by
  obtain ⟨s,hrun,_,_⟩ := type.run
  have hbits := hrun.bits_le
  refine h.imp_of_mem ?_
  intro d e hd _ hlimit hsame
  have hoffset := hsame.offset
  have hfit := hbits d hd
  have hused := hsame.left
  unfold limit at hlimit
  omega

end LaidStruct

namespace LlvmPodStruct

open LlvmStructType (paddingIf SameUnit)

variable {τ : Type} [MemberType τ] [DecidableEq τ] {align : ℕ → ℕ → ℕ} {m : ConstTypes τ align}
  {p : List UInt8} {f : τ → List UInt8 → Emission} {type : LaidStruct τ align}

theorem get_eq (hfits : type.Fits) (hunits : type.UnitsApart) (hp : p.length = type.size)
    (hexact : ∀ d ∈ type.members, Exact m f p d) :
    get p m f type = .ok ⟨.struct type.llvmId,p⟩ := by
  obtain ⟨s,qs,hrun,hlaid,hqs,hle⟩ := hfits.run m.roundsUp
  have hlast : HasLast type.start [] := by
    intro last hlast
    rw [type.started.lastBitField] at hlast
    cases hlast
  have hstart : InStep m p create type.start.llvmFieldTypeArray type.start.fieldSize := by
    rw [type.started.llvmFieldTypeArray,type.started.fieldSize]
    exact InStep.create
  have hsize : p.length < 2 ^ 64 := by
    rw [hp]
    exact type.size_lt
  rw [← hp] at hle
  obtain ⟨b,hb,hstep⟩ := addMembers_run m.roundsUp hrun hsize (paddingIf s.fieldSize type.size) hqs
    hle hlast hunits hexact hstart
  obtain ⟨b',hb',hstep'⟩ := hstep.addPaddingIf [] (show s.fieldSize ≤ type.size by omega) (by omega)
  have helements : m.elements type =
      (s.llvmFieldTypeArray ++ paddingIf s.fieldSize type.size).map m.elementType := by
    unfold ConstTypes.elements
    rw [hlaid,LlvmStructType.finished_fields]
  rw [List.append_nil] at hb'
  unfold get
  rw [helements]
  show (do
    let s ← create.addMembers _ p m f (((type.baseTypes.map FieldDecl.ofBase) ++ type.fields).zip
      type.placements)
    let s ← s.addPaddingIf _ p type.size
    LlvmConst.getStruct _ _ s.llvmFieldArray) = _
  rw [hb]
  show (do
    let s ← b.addPaddingIf _ p type.size
    LlvmConst.getStruct _ _ s.llvmFieldArray) = _
  rw [hb']
  have himage : (b'.llvmFieldArray.map LlvmConst.image).flatten = p := by
    have htake := hstep'.image
    rw [← hp,List.take_length] at htake
    exact htake
  show LlvmConst.getStruct _ _ b'.llvmFieldArray = _
  unfold LlvmConst.getStruct
  rw [if_pos hstep'.types,himage]

variable {elements : List LlvmType} {b b' : LlvmPodStruct}

theorem addPaddingIf_ok {offset : ℕ} (h : b.addPaddingIf elements p offset = .ok b') :
    b.offset ≤ offset ∧ b'.offset = offset ∧
      ∃ padding, padding.length = offset - b.offset ∧ b'.image = b.image ++ padding := by
  unfold addPaddingIf at h
  split at h
  · cases h
  · rename_i hbefore
    split at h
    · rename_i hsame
      cases h
      exact ⟨Nat.le_of_eq hsame.symm,hsame.symm,[],by rw [hsame]; simp,(List.append_nil _).symm⟩
    · split at h
      · cases h
      · split at h
        · simp only [bind,Except.bind] at h
          split at h
          · cases h
          · rename_i data hdata
            obtain ⟨hinside,rfl⟩ := readBytes_ok hdata
            split at h
            · cases h
            · rename_i field hfield
              obtain ⟨rfl,_⟩ := LlvmConst.getData_ok hfield
              cases h
              refine ⟨Nat.le_of_not_lt hbefore,rfl,_,length_slice hinside,?_⟩
              exact image_append b _
        · cases h
      · cases h

/-- A member of the struct has been added. -/
structure Added (f : τ → List UInt8 → Emission) (p : List UInt8) (b : LlvmPodStruct) (offset : ℕ)
    (type : τ) (b' : LlvmPodStruct) (field : LlvmConst) : Prop where
  before : b.offset ≤ offset
  inside : offset + LayoutType.size type ≤ p.length
  emitted : f type (slice p offset (LayoutType.size type)) = .ok field
  advanced : b'.offset = (offset + LayoutType.size type) % 2 ^ 64
  image : ∃ padding, padding.length = offset - b.offset ∧
    b'.image = b.image ++ padding ++ field.image

theorem add_ok {offset : ℕ} {type : τ} (h : b.add elements p m f offset type = .ok b') :
    ∃ field, Added f p b offset type b' field := by
  simp only [add,bind,Except.bind] at h
  split at h
  · cases h
  · rename_i b₁ hpadding
    obtain ⟨hbefore,hoffset,padding,hlength,himage⟩ := addPaddingIf_ok hpadding
    split at h
    · cases h
    · split at h
      · split at h
        · cases h
        · rename_i data hdata
          obtain ⟨hinside,rfl⟩ := readBytes_ok hdata
          split at h
          · cases h
          · rename_i field hfield
            cases h
            refine ⟨field,hbefore,hinside,hfield,?_,padding,hlength,?_⟩
            · show (b₁.offset + _) % _ = _
              rw [hoffset]
            · show (b₁.append field).image = _
              rw [image_append,himage]
      · cases h

open LlvmStructType (limit)

/-- The member has been emitted, and the bytes at its place are those of its constant. -/
structure Emitted (f : τ → List UInt8 → Emission) (p image : List UInt8)
    (d : FieldDecl τ × LaidField) (field : LlvmConst) : Prop where
  inside : limit d ≤ p.length
  emitted : f d.1.type (slice p d.2.offset (LayoutType.size d.1.type)) = .ok field
  image : slice image d.2.offset (LayoutType.size d.1.type) = field.image

/-- Members that are emitted one after the other. -/
structure EmittedAll (f : τ → List UInt8 → Emission) (p : List UInt8) (b : LlvmPodStruct)
    (ds : List (FieldDecl τ × LaidField)) (b' : LlvmPodStruct) : Prop where
  begins : ∀ d ∈ ds, b.offset ≤ d.2.offset
  before : ds.Pairwise fun d e => limit d ≤ e.2.offset
  grows : ∃ added, b'.image = b.image ++ added
  filled : b'.image.length = b'.offset
  members : ∀ image, (∃ added, image = b'.image ++ added) →
    ∀ d ∈ ds, ∃ field, Emitted f p image d field

theorem addMembers_ok (hp : p.length < 2 ^ 64) {ds : List (FieldDecl τ × LaidField)}
    (hlength : ∀ d ∈ ds, ∀ data field, data.length = LayoutType.size d.1.type →
      f d.1.type data = .ok field → field.image.length = LayoutType.size d.1.type) :
    ∀ {b : LlvmPodStruct}, b.image.length = b.offset →
      b.addMembers elements p m f ds = .ok b' → EmittedAll f p b ds b' := by
  induction ds with
  | nil =>
    intro b hfilled h
    cases h
    exact ⟨by simp,.nil,⟨[],(List.append_nil _).symm⟩,hfilled,by simp⟩
  | cons d ds ih =>
    intro b hfilled h
    simp only [addMembers,bind,Except.bind] at h
    split at h
    · cases h
    · rename_i b₁ hadd
      obtain ⟨field,hadded⟩ := add_ok hadd
      obtain ⟨padding,hpadding,himage⟩ := hadded.image
      have hinside := hadded.inside
      have hbefore := hadded.before
      have hfield : field.image.length = LayoutType.size d.1.type :=
        hlength d List.mem_cons_self _ field (length_slice hinside) hadded.emitted
      have hoffset : b₁.offset = limit d :=
        hadded.advanced.trans (Nat.mod_eq_of_lt (Nat.lt_of_le_of_lt hinside hp))
      have hstart : (b.image ++ padding).length = d.2.offset := by
        rw [List.length_append,hfilled,hpadding]
        omega
      have hfilled₁ : b₁.image.length = b₁.offset := by
        rw [himage,List.length_append,hstart,hfield,hoffset]
        rfl
      have hrest := ih (fun e he => hlength e (List.mem_cons_of_mem _ he)) hfilled₁ h
      obtain ⟨added,hgrows⟩ := hrest.grows
      constructor
      · intro e he
        cases List.mem_cons.mp he with
        | inl he =>
          subst he
          exact hbefore
        | inr he =>
          have hlater := hrest.begins e he
          rw [hoffset] at hlater
          unfold limit at hlater
          omega
      · apply List.pairwise_cons.mpr
        refine ⟨?_,hrest.before⟩
        intro e he
        rw [← hoffset]
        exact hrest.begins e he
      · refine ⟨padding ++ field.image ++ added,?_⟩
        rw [hgrows,himage]
        simp only [List.append_assoc]
      · exact hrest.filled
      · intro image himages e he
        cases List.mem_cons.mp he with
        | inr he => exact hrest.members image himages e he
        | inl he =>
          subst he
          obtain ⟨after,rfl⟩ := himages
          refine ⟨field,hinside,hadded.emitted,?_⟩
          rw [hgrows,himage,List.append_assoc _ added after,← hstart,← hfield]
          exact slice_append_middle

theorem get_ok (hp : p.length = type.size) {c : LlvmConst} (h : get p m f type = .ok c)
    (hlength : ∀ d ∈ type.members, ∀ data field, data.length = LayoutType.size d.1.type →
      f d.1.type data = .ok field → field.image.length = LayoutType.size d.1.type) :
    type.Fits ∧ type.UnitsApart ∧ c.type = .struct type.llvmId ∧ c.image.length = type.size ∧
      ∀ d ∈ type.members, ∃ field, Emitted f p c.image d field := by
  have hsize : p.length < 2 ^ 64 := by
    rw [hp]
    exact type.size_lt
  simp only [get,bind,Except.bind] at h
  split at h
  · cases h
  · rename_i b hb
    have hall := addMembers_ok hsize hlength rfl hb
    split at h
    · cases h
    · rename_i b' hb'
      obtain ⟨hle,_,padding,hpadding,himage⟩ := addPaddingIf_ok hb'
      unfold LlvmConst.getStruct at h
      split at h
      · cases h
        have hmembers := hall.members b'.image ⟨padding,himage⟩
        refine ⟨?_,LaidStruct.unitsApart_of_before hall.before,rfl,?_,hmembers⟩
        · apply LaidStruct.fits_of_inside m.roundsUp
          intro d hd
          obtain ⟨field,hemitted⟩ := hmembers d hd
          rw [← hp]
          exact hemitted.inside
        · show b'.image.length = type.size
          rw [himage,List.length_append,hall.filled,hpadding]
          omega
      · cases h

end LlvmPodStruct
end Jancy.Ct
