import Jancy.Ct.FieldDecl

/-! What both layouts do with bit fields, for any way of placing a new storage unit. A bit field
goes on in the unit of the last one or opens a unit of its own. -/
namespace Jancy.Ct

structure LastBits (τ : Type) [LayoutType τ] where
  type : τ
  bitOffset : ℕ
  bitCount : ℕ
  inUnit : bitOffset + bitCount ≤ LayoutType.size type * 8
  nonempty : 0 < bitCount

/-- The end of the last unit, and the bit field there if the last field is one. -/
structure Allocator (τ : Type) [LayoutType τ] where
  size : ℕ
  last : Option (LastBits τ)
  room : ∀ bits ∈ last, LayoutType.size bits.type ≤ size

section Bits

variable {τ : Type} [LayoutType τ]

theorem LastBits.size_pos (bits : LastBits τ) : 0 < LayoutType.size bits.type := by
  have hin := bits.inUnit
  have hpos := bits.nonempty
  omega

/-- Where the open unit starts: the next field goes there or beyond. -/
def Allocator.floor (a : Allocator τ) : ℕ :=
  match a.last with
  | none => a.size
  | some bits => a.size - LayoutType.size bits.type

theorem Allocator.floor_none {a : Allocator τ} (h : a.last = none) : a.floor = a.size := by
  simp [Allocator.floor,h]

theorem Allocator.floor_some {a : Allocator τ} {bits : LastBits τ} (h : a.last = some bits) :
    a.floor = a.size - LayoutType.size bits.type := by
  simp [Allocator.floor,h]

theorem Allocator.floor_le (a : Allocator τ) : a.floor ≤ a.size := by
  cases h : a.last with
  | none => exact Nat.le_of_eq (Allocator.floor_none h)
  | some bits =>
    rw [Allocator.floor_some h]
    exact Nat.sub_le _ _

/-- The bits of a field that opens a unit. -/
def freshOffset (field : FieldDecl τ) : ℕ :=
  if field.flags.bigEndian then LayoutType.size field.type * 8 - field.bitCount else 0

theorem freshOffset_inUnit {field : FieldDecl τ}
    (h : field.bitCount ≤ LayoutType.size field.type * 8) :
    freshOffset field + field.bitCount ≤ LayoutType.size field.type * 8 := by
  unfold freshOffset
  split <;> omega

def nextOffset [DecidableEq τ] (last : LastBits τ) (field : FieldDecl τ) : Option ℕ :=
  if last.type ≠ field.type then none
  else if field.flags.bigEndian then
    if field.bitCount ≤ last.bitOffset then some (last.bitOffset - field.bitCount) else none
  else if last.bitOffset + last.bitCount + field.bitCount ≤ LayoutType.size field.type * 8 then
    some (last.bitOffset + last.bitCount)
  else none

variable [DecidableEq τ] {last : LastBits τ} {field : FieldDecl τ} {b : ℕ}

theorem nextOffset_type (h : nextOffset last field = some b) : last.type = field.type := by
  unfold nextOffset at h
  split at h
  · cases h
  · rename_i htype
    exact not_not.mp htype

theorem nextOffset_beyond (h : nextOffset last field = some b) :
    if field.flags.bigEndian then b + field.bitCount = last.bitOffset
    else b = last.bitOffset + last.bitCount := by
  have htype := nextOffset_type h
  rw [nextOffset,if_neg (not_not.mpr htype)] at h
  split at h
  · rename_i hbig
    split at h <;> simp at h
    rw [if_pos hbig]
    omega
  · rename_i hbig
    split at h <;> simp at h
    rw [if_neg hbig]
    omega

theorem nextOffset_inUnit (h : nextOffset last field = some b) :
    b + field.bitCount ≤ LayoutType.size field.type * 8 := by
  have htype := nextOffset_type h
  have hin := last.inUnit
  rw [htype] at hin
  rw [nextOffset,if_neg (not_not.mpr htype)] at h
  split at h
  · split at h <;> simp at h
    omega
  · split at h <;> simp at h
    omega

end Bits

namespace Allocator

variable {τ : Type} [LayoutType τ] [DecidableEq τ]

/-- Where a field goes, with new units at `newOffset`, and the allocator after it. -/
inductive Placed (newOffset : ℕ → τ → ℕ) (a : Allocator τ) (field : FieldDecl τ) :
    Placement → Allocator τ → Prop
  | plain {a' : Allocator τ} (hplain : field.bitCount = 0)
      (hsize : a'.size = newOffset a.size field.type + LayoutType.size field.type)
      (hlast : a'.last = none) :
      Placed newOffset a field ⟨newOffset a.size field.type,0,0⟩ a'
  | merged {last bits : LastBits τ} {a' : Allocator τ} (ha : a.last = some last)
      (hnext : nextOffset last field = some bits.bitOffset)
      (htype : bits.type = field.type) (hcount : bits.bitCount = field.bitCount)
      (hsize : a'.size = a.size) (hlast : a'.last = some bits) :
      Placed newOffset a field
        ⟨a.size - LayoutType.size field.type,bits.bitOffset,field.bitCount⟩ a'
  | opened {bits : LastBits τ} {a' : Allocator τ}
      (hnext : ∀ last ∈ a.last, nextOffset last field = none)
      (hfresh : bits.bitOffset = freshOffset field)
      (htype : bits.type = field.type) (hcount : bits.bitCount = field.bitCount)
      (hsize : a'.size = newOffset a.size field.type + LayoutType.size field.type)
      (hlast : a'.last = some bits) :
      Placed newOffset a field ⟨newOffset a.size field.type,bits.bitOffset,field.bitCount⟩ a'

inductive PlacedAll (newOffset : ℕ → τ → ℕ) :
    Allocator τ → List (FieldDecl τ) → List Placement → Allocator τ → Prop
  | nil (a : Allocator τ) : PlacedAll newOffset a [] [] a
  | cons {a a₁ a₂ : Allocator τ} {field : FieldDecl τ} {p : Placement}
      {fields : List (FieldDecl τ)} {ps : List Placement}
      (h : Placed newOffset a field p a₁) (hs : PlacedAll newOffset a₁ fields ps a₂) :
      PlacedAll newOffset a (field :: fields) (p :: ps) a₂

variable {newOffset : ℕ → τ → ℕ} {a a' : Allocator τ} {field : FieldDecl τ} {p : Placement}
  {fields : List (FieldDecl τ)} {ps : List Placement}

theorem exists_placed (newOffset : ℕ → τ → ℕ) (a : Allocator τ)
    (hfit : field.bitCount ≤ LayoutType.size field.type * 8) :
    ∃ p a', Placed newOffset a field p a' := by
  by_cases hplain : field.bitCount = 0
  · let a' : Allocator τ :=
      ⟨newOffset a.size field.type + LayoutType.size field.type,none,by simp⟩
    exact ⟨_,a',.plain hplain rfl rfl⟩
  · have hbits : 0 < field.bitCount := Nat.pos_of_ne_zero hplain
    cases hnext : a.last.bind (nextOffset · field) with
    | none =>
      let bits : LastBits τ :=
        ⟨field.type,freshOffset field,field.bitCount,freshOffset_inUnit hfit,hbits⟩
      let a' : Allocator τ :=
        ⟨newOffset a.size field.type + LayoutType.size field.type,some bits,by simp [bits]⟩
      have hnext' : ∀ last ∈ a.last, nextOffset last field = none := by
        simpa [Option.bind_eq_none_iff] using hnext
      have hopened : Placed newOffset a field
          ⟨newOffset a.size field.type,bits.bitOffset,field.bitCount⟩ a' :=
        .opened hnext' rfl rfl rfl rfl rfl
      exact ⟨_,a',hopened⟩
    | some b =>
      obtain ⟨last,hlast,hb⟩ := Option.bind_eq_some_iff.mp hnext
      let bits : LastBits τ := ⟨field.type,b,field.bitCount,nextOffset_inUnit hb,hbits⟩
      have hroom := a.room last hlast
      rw [nextOffset_type hb] at hroom
      let a' : Allocator τ := ⟨a.size,some bits,by simpa [bits] using hroom⟩
      have hmerged : Placed newOffset a field
          ⟨a.size - LayoutType.size field.type,bits.bitOffset,field.bitCount⟩ a' :=
        .merged hlast hb rfl rfl rfl rfl
      exact ⟨_,a',hmerged⟩

theorem Placed.of_plain (h : Placed newOffset a field p a') (hplain : field.bitCount = 0) :
    p = ⟨newOffset a.size field.type,0,0⟩ ∧
      a'.size = newOffset a.size field.type + LayoutType.size field.type ∧ a'.last = none := by
  cases h with
  | plain _ hsize hlast => exact ⟨rfl,hsize,hlast⟩
  | @merged _ bits _ _ _ _ hcount =>
    have hpos := bits.nonempty
    omega
  | @opened bits _ _ _ _ hcount =>
    have hpos := bits.nonempty
    omega

theorem PlacedAll.append {a₁ a₂ a₃ : Allocator τ} {fields fields' : List (FieldDecl τ)}
    {ps ps' : List Placement} (h : PlacedAll newOffset a₁ fields ps a₂)
    (h' : PlacedAll newOffset a₂ fields' ps' a₃) :
    PlacedAll newOffset a₁ (fields ++ fields') (ps ++ ps') a₃ := by
  induction h with
  | nil => exact h'
  | cons hp _ ih => exact .cons hp (ih h')

def InUnit (field : FieldDecl τ) (p : Placement) : Prop :=
  p.bitCount = field.bitCount ∧ p.bitOffset + p.bitCount ≤ LayoutType.size field.type * 8

omit [DecidableEq τ] in
theorem inUnit_of_bits {bits : LastBits τ} (offset : ℕ) (htype : bits.type = field.type)
    (hcount : bits.bitCount = field.bitCount) :
    InUnit field ⟨offset,bits.bitOffset,field.bitCount⟩ := by
  have hin := bits.inUnit
  rw [htype,hcount] at hin
  exact ⟨rfl,hin⟩

theorem Placed.inUnit (h : Placed newOffset a field p a') : InUnit field p := by
  cases h with
  | plain hplain => exact ⟨hplain.symm,Nat.zero_le _⟩
  | merged _ _ htype hcount => exact inUnit_of_bits _ htype hcount
  | opened _ _ htype hcount => exact inUnit_of_bits _ htype hcount

theorem PlacedAll.inUnit (h : PlacedAll newOffset a fields ps a') :
    List.Forall₂ InUnit fields ps := by
  induction h with
  | nil => exact .nil
  | cons h _ ih => exact .cons h.inUnit ih

theorem Placed.last_eq (h : Placed newOffset a field p a') (hbits : field.bitCount ≠ 0) :
    ∃ bits, a'.last = some bits ∧ bits.type = field.type ∧ bits.bitOffset = p.bitOffset ∧
      bits.bitCount = p.bitCount ∧ a'.floor = p.offset := by
  cases h with
  | plain hplain => exact absurd hplain hbits
  | @merged _ bits _ _ _ htype hcount hsize hlast =>
    have hfloor := floor_some hlast
    rw [hsize,htype] at hfloor
    exact ⟨bits,hlast,htype,rfl,hcount,hfloor⟩
  | @opened bits _ _ _ htype hcount hsize hlast =>
    have hfloor := floor_some hlast
    rw [hsize,htype,Nat.add_sub_cancel] at hfloor
    exact ⟨bits,hlast,htype,rfl,hcount,hfloor⟩

section Law

variable (hnew : ∀ n t, n ≤ newOffset n t)

include hnew

theorem Placed.floor_le_offset (h : Placed newOffset a field p a') : a.floor ≤ p.offset := by
  cases h with
  | plain => exact Nat.le_trans a.floor_le (hnew _ _)
  | merged ha hnext =>
    apply Nat.le_of_eq
    rw [floor_some ha,nextOffset_type hnext]
  | opened => exact Nat.le_trans a.floor_le (hnew _ _)

theorem Placed.stays_or_leaves {last : LastBits τ} (ha : a.last = some last)
    (h : Placed newOffset a field p a') :
    (∃ bits, nextOffset last field = some p.bitOffset ∧ p.bitCount = field.bitCount ∧
      a'.last = some bits ∧ bits.type = field.type ∧ bits.bitOffset = p.bitOffset ∧
      bits.bitCount = field.bitCount ∧ a'.floor = a.floor) ∨
    (a.floor < p.offset ∧ a.floor < a'.floor) := by
  have hfloor : a.floor < a.size := by
    have hpos := last.size_pos
    have hroom := a.room last ha
    rw [floor_some ha]
    omega
  have hsize := hnew a.size field.type
  cases h with
  | plain _ hsize' hlast =>
    right
    rw [floor_none hlast]
    constructor
    · show a.floor < newOffset a.size field.type
      omega
    · omega
  | merged ha' hnext htype hcount hsize' hlast =>
    left
    have heq : last = _ := Option.some.inj (ha.symm.trans ha')
    subst heq
    have htype' := nextOffset_type hnext
    exact ⟨_,hnext,rfl,hlast,htype,rfl,hcount,by
      rw [floor_some hlast,floor_some ha,hsize',htype,htype']⟩
  | opened _ _ htype _ hsize' hlast =>
    right
    rw [floor_some hlast,htype]
    constructor
    · show a.floor < newOffset a.size field.type
      omega
    · omega

theorem Placed.floor_mono (h : Placed newOffset a field p a') : a.floor ≤ a'.floor := by
  cases hbits : a.last with
  | none =>
    have hsize := hnew a.size field.type
    rw [floor_none hbits]
    cases h with
    | plain _ hsize' hlast =>
      rw [floor_none hlast]
      omega
    | merged ha => simp [hbits] at ha
    | opened _ _ htype _ hsize' hlast =>
      rw [floor_some hlast,htype]
      omega
  | some last =>
    cases h.stays_or_leaves hnew hbits with
    | inl hstay =>
      obtain ⟨_,_,_,_,_,_,_,hfloor⟩ := hstay
      exact Nat.le_of_eq hfloor.symm
    | inr hleave => exact Nat.le_of_lt hleave.2

theorem PlacedAll.floor_le (h : PlacedAll newOffset a fields ps a') :
    ∀ p ∈ ps, a.floor ≤ p.offset := by
  induction h with
  | nil => simp
  | cons h _ ih =>
    intro q hq
    cases hq with
    | head => exact h.floor_le_offset hnew
    | tail _ hq => exact Nat.le_trans (h.floor_mono hnew) (ih q hq)

omit [DecidableEq τ] hnew in
theorem mem_of_zip {mid post : List (FieldDecl τ × Placement)} {d : FieldDecl τ × Placement}
    (h : fields.zip ps = mid ++ d :: post) : d.2 ∈ ps := by
  have hd : d ∈ fields.zip ps := by
    rw [h]
    simp
  exact (List.of_mem_zip hd).2

/-- The side of `bits` on which fields of one endianness go on. -/
def Beyond (bigEndian : Bool) (bits : LastBits τ) (p : Placement) : Prop :=
  if bigEndian then p.bitOffset + p.bitCount ≤ bits.bitOffset
  else bits.bitOffset + bits.bitCount ≤ p.bitOffset

/-- A later field of the open unit has the type of that unit. With one endianness throughout, it
also has bits beyond the last ones. -/
theorem PlacedAll.beyond (h : PlacedAll newOffset a fields ps a') :
    ∀ {last : LastBits τ} {mid post : List (FieldDecl τ × Placement)} {field : FieldDecl τ}
      {p : Placement}, a.last = some last → fields.zip ps = mid ++ (field,p) :: post →
      p.offset = a.floor →
      last.type = field.type ∧ ∀ bigEndian : Bool,
        (∀ d ∈ mid ++ [(field,p)], d.1.flags.bigEndian = bigEndian) →
        Beyond bigEndian last p := by
  induction h with
  | nil =>
    intro last mid post field p _ hzip _
    simp at hzip
  | @cons a a₁ a₂ head q fields ps hhead hs ih =>
    intro last mid post field p hlast hzip hoffset
    have hcases := hhead.stays_or_leaves hnew hlast
    cases mid with
    | nil =>
      simp only [List.zip_cons_cons,List.nil_append,List.cons.injEq,Prod.mk.injEq] at hzip
      obtain ⟨⟨rfl,rfl⟩,_⟩ := hzip
      cases hcases with
      | inl hstay =>
        obtain ⟨bits,hnext,hcount,_⟩ := hstay
        constructor
        · exact nextOffset_type hnext
        · intro bigEndian hall
          have hbig := hall (head,q) (by simp)
          have hbeyond := nextOffset_beyond hnext
          rw [hbig] at hbeyond
          unfold Beyond
          rw [hcount]
          cases bigEndian <;> simp at hbeyond ⊢ <;> omega
      | inr hleave => omega
    | cons d mid =>
      simp only [List.zip_cons_cons,List.cons_append,List.cons.injEq] at hzip
      obtain ⟨rfl,hzip⟩ := hzip
      cases hcases with
      | inl hstay =>
        obtain ⟨bits,hnext,_,hbits,htype,hbit,hbitCount,hfloor⟩ := hstay
        have hrest := ih hbits hzip (hoffset.trans hfloor.symm)
        constructor
        · exact (nextOffset_type hnext).trans (htype.symm.trans hrest.1)
        · intro bigEndian hall
          have hbig := hall (head,q) (by simp)
          have hbeyond := nextOffset_beyond hnext
          have hlater := hrest.2 bigEndian fun d hd => hall d (List.mem_cons_of_mem _ hd)
          rw [hbig] at hbeyond
          unfold Beyond at hlater ⊢
          rw [hbit,hbitCount] at hlater
          cases bigEndian <;> simp at hbeyond hlater ⊢ <;> omega
      | inr hleave =>
        have hfloor := hs.floor_le hnew p (mem_of_zip hzip)
        omega

end Law

theorem PlacedAll.split (h : PlacedAll newOffset a fields ps a') :
    ∀ {pre rest : List (FieldDecl τ × Placement)} {field : FieldDecl τ} {p : Placement},
      fields.zip ps = pre ++ (field,p) :: rest →
      ∃ a₁ a₂ fields' ps', Placed newOffset a₁ field p a₂ ∧
        PlacedAll newOffset a₂ fields' ps' a' ∧ fields'.zip ps' = rest := by
  induction h with
  | nil =>
    intro pre rest field p hzip
    simp at hzip
  | @cons a a₁ a₂ head q fields ps hhead hs ih =>
    intro pre rest field p hzip
    cases pre with
    | nil =>
      simp only [List.zip_cons_cons,List.nil_append,List.cons.injEq,Prod.mk.injEq] at hzip
      obtain ⟨⟨rfl,rfl⟩,rfl⟩ := hzip
      exact ⟨a,a₁,fields,ps,hhead,hs,rfl⟩
    | cons d pre =>
      simp only [List.zip_cons_cons,List.cons_append,List.cons.injEq] at hzip
      exact ih hzip.2

/-- Two bit fields that share a unit have one type. Their bits are apart, unless the endianness
changes from the one to the other. -/
def Apart (decls : List (FieldDecl τ × Placement)) : Prop :=
  ∀ (pre mid post : List (FieldDecl τ × Placement)) (field field' : FieldDecl τ)
    (p p' : Placement), decls = pre ++ (field,p) :: (mid ++ (field',p') :: post) →
    field.bitCount ≠ 0 → p.offset = p'.offset →
    field.type = field'.type ∧
      ((∀ d ∈ mid ++ [(field',p')], d.1.flags.bigEndian = field.flags.bigEndian) →
        p.bitOffset + p.bitCount ≤ p'.bitOffset ∨ p'.bitOffset + p'.bitCount ≤ p.bitOffset)

theorem PlacedAll.apart (hnew : ∀ n t, n ≤ newOffset n t)
    (h : PlacedAll newOffset a fields ps a') : Apart (fields.zip ps) := by
  intro pre mid post field field' p p' hzip hbits hoffset
  obtain ⟨a₁,a₂,fields',ps',hfirst,hrest,hzip'⟩ := h.split hzip
  obtain ⟨bits,hlast,htype,hbit,hcount,hfloor⟩ := hfirst.last_eq hbits
  have hlater := hrest.beyond hnew hlast hzip' (hoffset.symm.trans hfloor.symm)
  constructor
  · exact htype.symm.trans hlater.1
  · intro hendian
    have hbeyond := hlater.2 _ hendian
    unfold Beyond at hbeyond
    rw [hbit,hcount] at hbeyond
    split at hbeyond
    · right
      exact hbeyond
    · left
      exact hbeyond

/-- Every unit begins where the last one ends. -/
def packed (n : ℕ) (_ : τ) : ℕ := n

/-- New units are rounded up to a multiple of `unit`. -/
structure Rounding (newOffset : ℕ → τ → ℕ) (unit : τ → ℕ) : Prop where
  le : ∀ n t, n ≤ newOffset n t
  lt : ∀ n t, newOffset n t < n + unit t
  dvd : ∀ n t, unit t ∣ newOffset n t

omit [LayoutType τ] [DecidableEq τ] in
theorem Rounding.eq_iff {newOffset : ℕ → τ → ℕ} {unit : τ → ℕ} (h : Rounding newOffset unit)
    (n : ℕ) (t : τ) : newOffset n t = n ↔ unit t ∣ n := by
  have hle := h.le n t
  have hlt := h.lt n t
  constructor
  · intro heq
    have hdvd := h.dvd n t
    rwa [heq] at hdvd
  · intro hdvd
    have hgap := Nat.eq_zero_of_dvd_of_lt (Nat.dvd_sub (h.dvd n t) hdvd) (by omega)
    omega

/-- The field goes on in the open unit. -/
def goesOn (last : Option (LastBits τ)) (field : FieldDecl τ) : Bool :=
  decide (field.bitCount ≠ 0) && (last.bind (nextOffset · field)).isSome

theorem Placed.offset_eq (h : Placed newOffset a field p a') :
    p.offset =
      if goesOn a.last field then a.size - LayoutType.size field.type
      else newOffset a.size field.type := by
  cases h with
  | plain hplain => simp [goesOn,hplain]
  | @merged _ bits _ ha hnext _ hcount =>
    have hpos := bits.nonempty
    have hbits : field.bitCount ≠ 0 := by omega
    simp [goesOn,ha,hnext,hbits]
  | opened hnext =>
    have hnone : a.last.bind (nextOffset · field) = none := by
      simpa [Option.bind_eq_none_iff] using hnext
    simp [goesOn,hnone]

theorem Placed.size_eq (h : Placed newOffset a field p a') :
    a'.size =
      if goesOn a.last field then a.size
      else newOffset a.size field.type + LayoutType.size field.type := by
  cases h with
  | plain hplain hsize => simp [goesOn,hplain,hsize]
  | @merged _ bits _ ha hnext _ hcount hsize =>
    have hpos := bits.nonempty
    have hbits : field.bitCount ≠ 0 := by omega
    simp [goesOn,ha,hnext,hbits,hsize]
  | opened hnext _ _ _ hsize =>
    have hnone : a.last.bind (nextOffset · field) = none := by
      simpa [Option.bind_eq_none_iff] using hnext
    simp [goesOn,hnone,hsize]

section Agreement

variable {newOffset' : ℕ → τ → ℕ} {b b' : Allocator τ} {q : Placement} {qs : List Placement}
  {unit : τ → ℕ}

theorem Placed.transfer (newOffset : ℕ → τ → ℕ) (hlast : a.last = b.last) (h : Placed newOffset' b field q b') :
    ∃ p a', Placed newOffset a field p a' ∧ a'.last = b'.last ∧ p.bitOffset = q.bitOffset ∧
      p.bitCount = q.bitCount := by
  cases h with
  | plain hplain _ hlast' =>
    let a' : Allocator τ :=
      ⟨newOffset a.size field.type + LayoutType.size field.type,none,by simp⟩
    exact ⟨_,a',.plain hplain rfl rfl,hlast'.symm,rfl,rfl⟩
  | @merged last bits _ hb hnext htype hcount _ hlast' =>
    have hroom := a.room last (hlast.trans hb)
    rw [nextOffset_type hnext,← htype] at hroom
    let a' : Allocator τ := ⟨a.size,some bits,by simpa using hroom⟩
    exact ⟨_,a',.merged (hlast.trans hb) hnext htype hcount rfl rfl,hlast'.symm,rfl,rfl⟩
  | @opened bits _ hnext hfresh htype hcount _ hlast' =>
    let a' : Allocator τ :=
      ⟨newOffset a.size field.type + LayoutType.size field.type,some bits,by simp [htype]⟩
    rw [← hlast] at hnext
    exact ⟨_,a',.opened hnext hfresh htype hcount rfl rfl,hlast'.symm,rfl,rfl⟩

def OpenAligned (unit : τ → ℕ) (a : Allocator τ) : Prop :=
  ∀ last ∈ a.last, unit last.type ∣ a.floor

theorem Placed.aligned (hround : Rounding newOffset unit) (ha : OpenAligned unit a)
    (h : Placed newOffset a field p a') :
    unit field.type ∣ p.offset ∧ OpenAligned unit a' := by
  have hoffset : unit field.type ∣ p.offset := by
    cases h with
    | plain => exact hround.dvd _ _
    | merged hlast hnext =>
      have hdvd := ha _ hlast
      rw [floor_some hlast,nextOffset_type hnext] at hdvd
      exact hdvd
    | opened => exact hround.dvd _ _
  constructor
  · exact hoffset
  · intro last hlast
    have hbits : field.bitCount ≠ 0 := by
      intro hplain
      simp [(h.of_plain hplain).2.2] at hlast
    obtain ⟨bits,hlast',htype,_,_,hfloor⟩ := h.last_eq hbits
    have heq : last = bits := Option.some.inj (hlast.symm.trans hlast')
    rw [heq,htype,hfloor]
    exact hoffset

theorem Placed.offset_iff (hround : Rounding newOffset unit) (hsize : a.size = b.size)
    (hlast : a.last = b.last) (haligned : OpenAligned unit a)
    (h : Placed newOffset a field p a') (h' : Placed packed b field q b') :
    (p.offset = q.offset ↔ unit field.type ∣ q.offset) ∧
      (p.offset = q.offset → a'.size = b'.size) := by
  have hp := h.offset_eq
  have hq := h'.offset_eq
  have ha := h.size_eq
  have hb := h'.size_eq
  have hdvd := (h.aligned hround haligned).1
  rw [← hlast,← hsize] at hq hb
  cases hon : goesOn a.last field with
  | true =>
    simp only [hon,if_true] at hp hq ha hb
    have heq : p.offset = q.offset := hp.trans hq.symm
    rw [← heq]
    exact ⟨iff_of_true rfl hdvd,fun _ => ha.trans hb.symm⟩
  | false =>
    simp only [hon] at hp hq ha hb
    have hiff := hround.eq_iff a.size field.type
    rw [hp,hq]
    constructor
    · exact hiff
    · intro heq
      rw [ha,hb]
      exact congrArg (· + LayoutType.size field.type) heq

/-- The runs of a rounding and of a packed layout, side by side. -/
structure Agree (unit : τ → ℕ) (fields : List (FieldDecl τ)) (ps qs : List Placement) : Prop where
  bits : ps.map (fun p => (p.bitOffset,p.bitCount)) = qs.map fun q => (q.bitOffset,q.bitCount)
  offsets : ps.map Placement.offset = qs.map Placement.offset ↔
    ∀ d ∈ fields.zip qs, unit d.1.type ∣ d.2.offset

theorem PlacedAll.transfer (hround : Rounding newOffset unit)
    (h : PlacedAll packed b fields qs b') :
    ∀ {a : Allocator τ}, a.last = b.last → OpenAligned unit a →
      ∃ ps a', PlacedAll newOffset a fields ps a' ∧
        ps.map (fun p => (p.bitOffset,p.bitCount)) =
          qs.map (fun q => (q.bitOffset,q.bitCount)) ∧
        (a.size = b.size →
          (ps.map Placement.offset = qs.map Placement.offset ↔
            ∀ d ∈ fields.zip qs, unit d.1.type ∣ d.2.offset)) := by
  induction h with
  | nil b =>
    intro a _ _
    exact ⟨[],a,.nil a,rfl,fun _ => by simp⟩
  | @cons b b₁ b₂ field q fields qs hq hqs ih =>
    intro a hlast haligned
    obtain ⟨p,a₁,hp,hlast₁,hbit,hcount⟩ := hq.transfer newOffset hlast
    obtain ⟨ps,a₂,hps,hbits,hoffsets⟩ := ih hlast₁ (hp.aligned hround haligned).2
    refine ⟨p :: ps,a₂,.cons hp hps,?_,?_⟩
    · rw [List.map_cons,List.map_cons,hbit,hcount,hbits]
    · intro hsize
      obtain ⟨hoffset,hsize₁⟩ := hp.offset_iff hround hsize hlast haligned hq
      simp only [List.map_cons,List.cons.injEq,List.zip_cons_cons,List.forall_mem_cons]
      constructor
      · intro heq
        exact ⟨hoffset.mp heq.1,(hoffsets (hsize₁ heq.1)).mp heq.2⟩
      · intro hdvd
        have heq := hoffset.mpr hdvd.1
        exact ⟨heq,(hoffsets (hsize₁ heq)).mpr hdvd.2⟩

theorem PlacedAll.agree (hround : Rounding newOffset unit)
    (h : PlacedAll packed b fields qs b') (hsize : a.size = b.size)
    (hlast : a.last = none) (hlast' : b.last = none) :
    ∃ ps a', PlacedAll newOffset a fields ps a' ∧ Agree unit fields ps qs := by
  have haligned : OpenAligned unit a := by simp [OpenAligned,hlast]
  obtain ⟨ps,a',hps,hbits,hoffsets⟩ := h.transfer hround (hlast.trans hlast'.symm) haligned
  exact ⟨ps,a',hps,hbits,hoffsets hsize⟩

end Agreement
end Allocator
end Jancy.Ct
