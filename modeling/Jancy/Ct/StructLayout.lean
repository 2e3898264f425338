import Jancy.Ct.BitFieldAllocator

/-! The static layout of the fields of a struct. The rounding function `sl::align` is not part of
the repository and a parameter here. -/
namespace Jancy.Ct

/-- `m_lastBitField`, as far as the next field looks at it. -/
structure BitField (τ : Type) where
  type : τ
  offset : ℕ
  bitOffset : ℕ
  bitCount : ℕ

structure StructType (τ : Type) where
  fieldAlignment : ℕ
  alignment : ℕ
  fieldSize : ℕ
  lastBitField : Option (BitField τ)
  fieldAlignment_pow : ∃ k, fieldAlignment = 2 ^ k

namespace StructType

variable {τ : Type} [LayoutType τ] (align : ℕ → ℕ → ℕ)

/-- A struct without fields yet. -/
def create (fieldAlignment : ℕ) (h : ∃ k, fieldAlignment = 2 ^ k) : StructType τ :=
  ⟨fieldAlignment,1,0,none,h⟩

def getFieldOffset (s : StructType τ) (type : τ) : ℕ × StructType τ :=
  let alignment := LayoutType.alignment type
  let alignment := if alignment > s.fieldAlignment then s.fieldAlignment else alignment
  (align s.fieldSize alignment,
    if alignment > s.alignment then { s with alignment } else s)

def layoutFieldImpl (s : StructType τ) (type : τ) : Placement × StructType τ :=
  let (offset,s) := s.getFieldOffset align type
  (⟨offset,0,0⟩,{ s with fieldSize := offset + LayoutType.size type, lastBitField := none })

def mergeBitField [DecidableEq τ] (s : StructType τ) (field : FieldDecl τ) :
    Option (BitField τ) × ℕ :=
  let baseBitCount := LayoutType.size field.type * 8
  let unmerged := if field.flags.bigEndian then baseBitCount - field.bitCount else 0
  match s.lastBitField with
  | none => (none,unmerged)
  | some last =>
      if last.type ≠ field.type then (none,unmerged)
      else if field.flags.bigEndian then
        let lastBitOffset := last.bitOffset
        if lastBitOffset ≥ field.bitCount then (some last,lastBitOffset - field.bitCount)
        else (none,unmerged)
      else
        let lastBitOffset := last.bitOffset + last.bitCount
        if lastBitOffset + field.bitCount ≤ baseBitCount then (some last,lastBitOffset)
        else (none,unmerged)

/-- `none` is the error "type of bit field too small for number of bits". -/
def layoutBitField [DecidableEq τ] (s : StructType τ) (field : FieldDecl τ) :
    Option (Placement × StructType τ) :=
  if field.bitCount > LayoutType.size field.type * 8 then none
  else
    match s.mergeBitField field with
    | (some last,bitOffset) =>
        some (⟨last.offset,bitOffset,field.bitCount⟩,
          { s with lastBitField := some ⟨field.type,last.offset,bitOffset,field.bitCount⟩ })
    | (none,bitOffset) =>
        let (offset,s) := s.getFieldOffset align field.type
        some (⟨offset,bitOffset,field.bitCount⟩,
          { s with
            fieldSize := offset + LayoutType.size field.type
            lastBitField := some ⟨field.type,offset,bitOffset,field.bitCount⟩ })

def layoutField [DecidableEq τ] (s : StructType τ) (field : FieldDecl τ) :
    Option (Placement × StructType τ) :=
  if field.bitCount ≠ 0 then s.layoutBitField align field
  else some (s.layoutFieldImpl align field.type)

def layoutFields [DecidableEq τ] (s : StructType τ) :
    List (FieldDecl τ) → Option (List Placement × StructType τ)
  | [] => some ([],s)
  | field :: fields =>
      match s.layoutField align field with
      | none => none
      | some (p,s) =>
          match s.layoutFields fields with
          | none => none
          | some (ps,s) => some (p :: ps,s)

/-- `m_size`, as `calcLayout` sets it after the fields. -/
def size (s : StructType τ) : ℕ := align s.fieldSize s.alignment

def effectiveAlignment (fieldAlignment : ℕ) (type : τ) : ℕ :=
  if LayoutType.alignment type > fieldAlignment then fieldAlignment
  else LayoutType.alignment type

def newOffset (fieldAlignment n : ℕ) (type : τ) : ℕ :=
  align n (effectiveAlignment fieldAlignment type)

/-- The allocator `a` is what `s` knows of its units. -/
structure Represents (s : StructType τ) (a : Allocator τ) : Prop where
  size : s.fieldSize = a.size
  last : s.lastBitField =
    a.last.map fun bits => ⟨bits.type,a.floor,bits.bitOffset,bits.bitCount⟩

variable {align} {s s' : StructType τ} {a a' : Allocator τ} {field : FieldDecl τ} {p : Placement}

theorem getFieldOffset_fieldAlignment (align : ℕ → ℕ → ℕ) (s : StructType τ) (type : τ) :
    (s.getFieldOffset align type).2.fieldAlignment = s.fieldAlignment := by
  unfold getFieldOffset
  dsimp only
  split <;> split <;> rfl

variable [DecidableEq τ]

theorem mergeBitField_merged {last : LastBits τ} {b : ℕ} (h : s.Represents a)
    (hlast : a.last = some last) (hnext : nextOffset last field = some b) :
    s.mergeBitField field =
      (some ⟨last.type,a.floor,last.bitOffset,last.bitCount⟩,b) := by
  have hs := h.last
  rw [hlast,Option.map_some] at hs
  unfold nextOffset at hnext
  unfold mergeBitField
  rw [hs]
  dsimp only
  split at hnext
  · cases hnext
  · rename_i htype
    rw [if_neg htype]
    split at hnext <;> rename_i hbig <;> split at hnext <;> rename_i hfit <;> cases hnext
    · rw [if_pos hbig,if_pos hfit]
    · rw [if_neg hbig,if_pos hfit]

theorem mergeBitField_fresh (h : s.Represents a)
    (hnext : ∀ last ∈ a.last, nextOffset last field = none) :
    s.mergeBitField field = (none,freshOffset field) := by
  have hs := h.last
  unfold mergeBitField
  cases hlast : a.last with
  | none =>
    rw [hlast,Option.map_none] at hs
    rw [hs]
    rfl
  | some last =>
    have hnone := hnext last hlast
    rw [hlast,Option.map_some] at hs
    rw [hs]
    dsimp only
    unfold nextOffset at hnone
    split at hnone
    · rename_i htype
      rw [if_pos htype]
      rfl
    · rename_i htype
      rw [if_neg htype]
      split at hnone <;> rename_i hbig <;> split at hnone <;> rename_i hfit <;> cases hnone
      · rw [if_pos hbig,if_neg hfit]
        rfl
      · rw [if_neg hbig,if_neg hfit]
        rfl

/-- The struct after a new unit for a field of `type`. -/
def afterUnit (align : ℕ → ℕ → ℕ) (s : StructType τ) (type : τ)
    (lastBitField : Option (BitField τ)) : StructType τ :=
  { (s.getFieldOffset align type).2 with
    fieldSize := newOffset align s.fieldAlignment s.fieldSize type + LayoutType.size type
    lastBitField }

theorem layoutField_of_placed (h : s.Represents a)
    (hp : Allocator.Placed (newOffset align s.fieldAlignment) a field p a') :
    ∃ s', s.layoutField align field = some (p,s') ∧ s'.Represents a' ∧
      s'.fieldAlignment = s.fieldAlignment := by
  have hfit : ¬ field.bitCount > LayoutType.size field.type * 8 := by
    have hin := hp.inUnit.2
    rw [hp.inUnit.1] at hin
    omega
  unfold layoutField
  cases hp with
  | plain hplain hsize hlast =>
    rw [if_neg (not_not.mpr hplain),← h.size]
    refine ⟨afterUnit align s field.type none,rfl,⟨?_,?_⟩,
      getFieldOffset_fieldAlignment align s field.type⟩
    · rw [hsize,← h.size]
      rfl
    · rw [hlast]
      rfl
  | @merged last bits _ hlast hnext htype hcount hsize hlast' =>
    have hpos := bits.nonempty
    have hbits : field.bitCount ≠ 0 := by omega
    have hfloor : a.floor = a.size - LayoutType.size field.type := by
      rw [Allocator.floor_some hlast,nextOffset_type hnext]
    rw [if_pos hbits,layoutBitField,if_neg hfit,mergeBitField_merged h hlast hnext,← hfloor]
    refine ⟨_,rfl,⟨?_,?_⟩,rfl⟩
    · rw [hsize]
      exact h.size
    · rw [hlast',Option.map_some,Allocator.floor_some hlast',hsize,htype,hcount,hfloor]
  | @opened bits _ hnext hfresh htype hcount hsize hlast =>
    have hpos := bits.nonempty
    have hbits : field.bitCount ≠ 0 := by omega
    rw [if_pos hbits,layoutBitField,if_neg hfit,mergeBitField_fresh h hnext,hfresh,← h.size]
    let offset := newOffset align s.fieldAlignment s.fieldSize field.type
    let last : BitField τ := ⟨field.type,offset,freshOffset field,field.bitCount⟩
    refine ⟨afterUnit align s field.type (some last),rfl,⟨?_,?_⟩,
      getFieldOffset_fieldAlignment align s field.type⟩
    · rw [hsize,← h.size]
      rfl
    · rw [hlast,Option.map_some,Allocator.floor_some hlast,hsize,htype,hcount,hfresh,
        Nat.add_sub_cancel,← h.size]
      rfl

theorem placed_of_layoutField (h : s.Represents a)
    (hs : s.layoutField align field = some (p,s')) :
    ∃ a', Allocator.Placed (newOffset align s.fieldAlignment) a field p a' ∧
      s'.Represents a' ∧ s'.fieldAlignment = s.fieldAlignment := by
  have hfit : field.bitCount ≤ LayoutType.size field.type * 8 := by
    rw [← Nat.not_lt]
    intro hbig
    have hbits : field.bitCount ≠ 0 := by omega
    rw [layoutField,if_pos hbits,layoutBitField,if_pos hbig] at hs
    cases hs
  obtain ⟨q,a',hq⟩ :=
    Allocator.exists_placed (newOffset align s.fieldAlignment) a hfit
  obtain ⟨s₁,hs₁,hrep,halign⟩ := layoutField_of_placed h hq
  rw [hs] at hs₁
  cases hs₁
  exact ⟨a',hq,hrep,halign⟩

variable {fields : List (FieldDecl τ)} {fieldAlignment : ℕ}

theorem layoutFields_of_placedAll {ps : List Placement}
    (hp : Allocator.PlacedAll (newOffset align fieldAlignment) a fields ps a') :
    ∀ {s : StructType τ}, s.Represents a → s.fieldAlignment = fieldAlignment →
      ∃ s', s.layoutFields align fields = some (ps,s') ∧ s'.Represents a' := by
  induction hp with
  | nil a =>
    intro s h _
    exact ⟨s,rfl,h⟩
  | cons hp _ ih =>
    intro s h halign
    rw [← halign] at hp
    obtain ⟨s₁,hs₁,h₁,halign₁⟩ := layoutField_of_placed h hp
    obtain ⟨s₂,hs₂,h₂⟩ := ih h₁ (halign₁.trans halign)
    exact ⟨s₂,by simp only [layoutFields,hs₁,hs₂],h₂⟩

theorem placedAll_of_layoutFields :
    ∀ {s : StructType τ} {a : Allocator τ} {ps : List Placement} {s' : StructType τ},
      s.Represents a → s.layoutFields align fields = some (ps,s') →
      ∃ a', Allocator.PlacedAll (newOffset align s.fieldAlignment) a fields ps a' ∧
        s'.Represents a' := by
  induction fields with
  | nil =>
    intro s a ps s' h hs
    cases hs
    exact ⟨a,.nil a,h⟩
  | cons field fields ih =>
    intro s a ps s' h hs
    unfold layoutFields at hs
    split at hs
    · cases hs
    · rename_i p s₁ hfield
      split at hs
      · cases hs
      · rename_i ps₁ s₂ hfields
        cases hs
        obtain ⟨a₁,hp,h₁,halign⟩ := placed_of_layoutField h hfield
        obtain ⟨a₂,hps,h₂⟩ := ih h₁ hfields
        rw [halign] at hps
        exact ⟨a₂,.cons hp hps,h₂⟩

omit [DecidableEq τ] in
theorem getFieldOffset_alignment (align : ℕ → ℕ → ℕ) (h : s.fieldAlignment ≤ s.alignment) (type : τ) :
    (s.getFieldOffset align type).2.alignment = s.alignment := by
  unfold getFieldOffset
  dsimp only
  split <;> rename_i hbig <;> split <;> rename_i hgrows
  · exact absurd hgrows (Nat.not_lt.mpr h)
  · rfl
  · exact absurd (Nat.lt_of_lt_of_le hgrows (Nat.le_of_not_lt hbig)) (Nat.not_lt.mpr h)
  · rfl

theorem layoutField_alignment (h : s.fieldAlignment ≤ s.alignment)
    (hs : s.layoutField align field = some (p,s')) :
    s'.fieldAlignment = s.fieldAlignment ∧ s'.alignment = s.alignment := by
  have hfield := getFieldOffset_fieldAlignment align s field.type
  have hstruct := getFieldOffset_alignment align h field.type
  unfold layoutField at hs
  split at hs
  · unfold layoutBitField at hs
    split at hs
    · cases hs
    · split at hs <;> cases hs
      · exact ⟨rfl,rfl⟩
      · exact ⟨hfield,hstruct⟩
  · cases hs
    exact ⟨hfield,hstruct⟩

theorem layoutFields_alignment :
    ∀ {s : StructType τ} {ps : List Placement} {s' : StructType τ},
      s.fieldAlignment ≤ s.alignment → s.layoutFields align fields = some (ps,s') →
      s'.alignment = s.alignment := by
  induction fields with
  | nil =>
    intro s ps s' _ hs
    cases hs
    rfl
  | cons field fields ih =>
    intro s ps s' h hs
    unfold layoutFields at hs
    split at hs
    · cases hs
    · rename_i p s₁ hfield
      split at hs
      · cases hs
      · rename_i ps₁ s₂ hfields
        cases hs
        obtain ⟨hpack,halign⟩ := layoutField_alignment h hfield
        have h₁ : s₁.fieldAlignment ≤ s₁.alignment := by rwa [hpack,halign]
        exact (ih h₁ hfields).trans halign

/-- What `sl::align` is for: the next multiple of a power of two. -/
structure RoundsUp (align : ℕ → ℕ → ℕ) : Prop where
  le : ∀ n k, n ≤ align n (2 ^ k)
  lt : ∀ n k, align n (2 ^ k) < n + 2 ^ k
  dvd : ∀ n k, 2 ^ k ∣ align n (2 ^ k)

omit [DecidableEq τ] in
theorem effectiveAlignment_pow (h : ∃ k, fieldAlignment = 2 ^ k) (type : τ) :
    ∃ k, effectiveAlignment fieldAlignment type = 2 ^ k := by
  unfold effectiveAlignment
  split
  · exact h
  · exact LayoutType.alignment_pow type

omit [DecidableEq τ] in
theorem RoundsUp.rounding (h : RoundsUp align) (hpow : ∃ k, fieldAlignment = 2 ^ k) :
    Allocator.Rounding (newOffset (τ := τ) align fieldAlignment)
      (effectiveAlignment fieldAlignment) := by
  constructor
  · intro n t
    obtain ⟨k,hk⟩ := effectiveAlignment_pow hpow t
    rw [newOffset,hk]
    exact h.le n k
  · intro n t
    obtain ⟨k,hk⟩ := effectiveAlignment_pow hpow t
    rw [newOffset,hk]
    exact h.lt n k
  · intro n t
    obtain ⟨k,hk⟩ := effectiveAlignment_pow hpow t
    rw [newOffset,hk]
    exact h.dvd n k

omit [DecidableEq τ] in
theorem effectiveAlignment_one (type : τ) : effectiveAlignment 1 type = 1 := by
  obtain ⟨k,hk⟩ := LayoutType.alignment_pow type
  have hpos := Nat.two_pow_pos k
  unfold effectiveAlignment
  split <;> omega

omit [DecidableEq τ] in
theorem RoundsUp.newOffset_one (h : RoundsUp align) :
    newOffset (τ := τ) align 1 = Allocator.packed := by
  funext n type
  have hround : Allocator.Rounding (newOffset (τ := τ) align 1) (effectiveAlignment 1) :=
    h.rounding ⟨0,rfl⟩
  rw [Allocator.packed,hround.eq_iff,effectiveAlignment_one]
  exact Nat.one_dvd n

theorem size_create_one (h : RoundsUp align) {ps : List Placement}
    (hs : (create 1 ⟨0,rfl⟩).layoutFields align fields = some (ps,s')) :
    s'.size align = s'.fieldSize := by
  have halign := layoutFields_alignment (Nat.le_refl 1) hs
  have hle := h.le s'.fieldSize 0
  have hlt := h.lt s'.fieldSize 0
  rw [size,halign]
  show align s'.fieldSize 1 = s'.fieldSize
  rw [Nat.pow_zero] at hle hlt
  omega

end StructType
end Jancy.Ct
