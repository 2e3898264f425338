import Jancy.Rtl.DynamicPlacement

/-! Structs and dynamic layouts place the same fields: how far they agree. -/
namespace Jancy.Rtl

open Ct (LayoutType FieldDecl Placement StructType Allocator IntType)
open Ct.StructType (RoundsUp effectiveAlignment newOffset)

variable {D τ : Type} [LayoutType τ] [DecidableEq τ] {align : ℕ → ℕ → ℕ}

variable {fields : List (FieldDecl τ)} {ps : List Placement}

theorem placedAll_shift {a₀ a₀' : Allocator τ}
    (h : Allocator.PlacedAll Allocator.packed a₀ fields ps a₀')
    (hplain : ∀ field ∈ fields, field.bitCount = 0) (offset : ℕ) :
    ∀ {a : Allocator τ}, a.size = offset + a₀.size →
      ∃ a', Allocator.PlacedAll Allocator.packed a fields (ps.map (shift offset)) a' ∧
        a'.size = offset + a₀'.size ∧ (fields ≠ [] → a'.last = none) := by
  induction h with
  | nil a₀ =>
    intro a ha
    exact ⟨a,.nil a,ha,fun hne => absurd rfl hne⟩
  | @cons a₀ a₁ a₂ field p fields ps hp hps ih =>
    intro a ha
    have hfield := hplain field List.mem_cons_self
    obtain ⟨rfl,hsize,_⟩ := hp.of_plain hfield
    let b₁ : Allocator τ := ⟨a.size + LayoutType.size field.type,none,by simp⟩
    have hb₁ : b₁.size = offset + a₁.size := by
      rw [hsize]
      show a.size + _ = offset + (a₀.size + _)
      omega
    have hhead : Allocator.Placed Allocator.packed a field
        (shift offset ⟨Allocator.packed a₀.size field.type,0,0⟩) b₁ := by
      show Allocator.Placed Allocator.packed a field ⟨offset + a₀.size,0,0⟩ b₁
      rw [← ha]
      exact .plain hfield rfl rfl
    obtain ⟨a',hps',hsize',hlast'⟩ :=
      ih (fun field hf => hplain field (List.mem_cons_of_mem _ hf)) hb₁
    refine ⟨a',.cons hhead hps',hsize',fun _ => ?_⟩
    cases hps with
    | nil =>
      cases hps'
      rfl
    | cons => exact hlast' (by simp)

/-- The allocator follows a dynamic layout through all of its calls. -/
theorem DynamicRun.placedAll (halign : RoundsUp align) {l l' : DynamicLayout D τ}
    {qs : List Placement} (h : DynamicRun align l fields qs l') :
    ∀ {a : Allocator τ}, Represents l a →
      ∃ a', Allocator.PlacedAll Allocator.packed a fields qs a' ∧ Represents l' a' := by
  induction h with
  | done hidle =>
    intro a hl
    exact ⟨a,.nil a,hidle.samePlace.represents hl⟩
  | bitField hidle hbits hcall _ ih =>
    intro a hl
    have hl₁ := hidle.samePlace.represents hl
    obtain ⟨a₁,hp,hl₂⟩ := addBitField_placed hl₁ hbits hcall
    obtain ⟨a',hps,hl'⟩ := ih hl₂
    exact ⟨a',.cons hp hps,hl'⟩
  | @field l l₁ l₂ l' decl isAsync offset field fields ps hidle hplain hcall _ ih =>
    intro a hl
    have hl₁ := hidle.samePlace.represents hl
    obtain ⟨rfl,hsize,hlast⟩ := addField_spec hcall
    let a₁ : Allocator τ := ⟨a.size + LayoutType.size field.type,none,by simp⟩
    have hp : Allocator.Placed Allocator.packed a field ⟨l₁.size,0,0⟩ a₁ := by
      rw [hl₁.size]
      exact .plain hplain rfl rfl
    have hsize₁ : l₂.size = a₁.size := by rw [hsize,hl₁.size]
    obtain ⟨a',hps,hl'⟩ := ih (Represents.of_plain hsize₁ hlast rfl)
    exact ⟨a',.cons hp hps,hl'⟩
  | @structSection l l₁ l₂ l' isAsync offset type struct section_ fields ps₁ ps hidle hne hplain
      hlayout hsize hcall _ ih =>
      intro a hl
      have hl₁ := hidle.samePlace.represents hl
      obtain ⟨rfl,hsize₂,hlast₂⟩ := addStruct_spec hcall
      let a₀ : Allocator τ := ⟨0,none,by simp⟩
      obtain ⟨a₀',hsection,hstruct⟩ :=
        StructType.placedAll_of_layoutFields (a := a₀) ⟨rfl,rfl⟩ hlayout
      have hpacked := halign.newOffset_one (τ := τ)
      change Allocator.PlacedAll (newOffset align 1) a₀ section_ ps₁ a₀' at hsection
      rw [hpacked] at hsection
      obtain ⟨a₁,hps₁,hsize₁,hlast₁⟩ :=
        placedAll_shift hsection hplain l₁.size (a := a) hl₁.size.symm
      have hend : l₂.size = a₁.size := by
        rw [hsize₂,hsize₁,hsize,StructType.size_create_one halign hlayout,hstruct.size]
      obtain ⟨a',hps,hl'⟩ := ih (Represents.of_plain hend hlast₂ (hlast₁ hne))
      exact ⟨a',hps₁.append hps,hl'⟩

/-- Every field has its bits inside its unit, and bit fields that share a unit are apart. -/
structure WellPlaced (fields : List (FieldDecl τ)) (ps : List Placement) : Prop where
  inUnit : List.Forall₂ Allocator.InUnit fields ps
  apart : Allocator.Apart (fields.zip ps)

omit [DecidableEq τ] in
theorem exists_represents_struct {s : StructType τ} (hs : s.lastBitField = none) :
    ∃ a : Allocator τ, s.Represents a ∧ a.size = s.fieldSize ∧ a.last = none :=
  ⟨⟨s.fieldSize,none,by simp⟩,⟨rfl,hs⟩,rfl,rfl⟩

omit [DecidableEq τ] in
theorem exists_represents_dynamic {l : DynamicLayout D τ} (hl : l.lastBitFieldType = none) :
    ∃ a : Allocator τ, Represents l a ∧ a.size = l.size ∧ a.last = none :=
  ⟨⟨l.size,none,by simp⟩,⟨rfl,hl,by simp⟩,rfl,rfl⟩

theorem wellPlaced_of_layoutFields (halign : RoundsUp align) {s s' : StructType τ}
    (hs : s.lastBitField = none) (h : s.layoutFields align fields = some (ps,s')) :
    WellPlaced fields ps := by
  obtain ⟨a,ha,_,_⟩ := exists_represents_struct hs
  obtain ⟨a',hps,_⟩ := StructType.placedAll_of_layoutFields ha h
  exact ⟨hps.inUnit,hps.apart (halign.rounding s.fieldAlignment_pow).le⟩

theorem wellPlaced_of_dynamicRun (halign : RoundsUp align) {l l' : DynamicLayout D τ}
    {qs : List Placement} (hl : l.lastBitFieldType = none) (h : DynamicRun align l fields qs l') :
    WellPlaced fields qs := by
  obtain ⟨a,ha,_,_⟩ := exists_represents_dynamic hl
  obtain ⟨a',hqs,_⟩ := h.placedAll halign ha
  exact ⟨hqs.inUnit,hqs.apart fun n t => Nat.le_refl n⟩

theorem placement_ext {ps qs : List Placement}
    (hbits : ps.map (fun p => (p.bitOffset,p.bitCount)) =
      qs.map fun q => (q.bitOffset,q.bitCount))
    (hoffsets : ps.map Placement.offset = qs.map Placement.offset) : ps = qs := by
  induction ps generalizing qs with
  | nil =>
    symm
    simpa using hoffsets
  | cons p ps ih =>
    cases qs with
    | nil => simp at hoffsets
    | cons q qs =>
      simp only [List.map_cons,List.cons.injEq,Prod.mk.injEq] at hbits hoffsets
      have hp : p = q := by
        cases p
        cases q
        simp_all
      rw [hp,ih hbits.2 hoffsets.2]

/-- A struct and a dynamic layout that begin at one offset give every field the same bits. The
layout is packed, so units differ just where alignment moves them. -/
theorem bitFields_agree (halign : RoundsUp align) (s : StructType τ) (l : DynamicLayout D τ)
    (fields : List (FieldDecl τ)) (hs : s.lastBitField = none) (hl : l.lastBitFieldType = none)
    (hsize : s.fieldSize = l.size) :
    (∀ ps s', s.layoutFields align fields = some (ps,s') → WellPlaced fields ps) ∧
      ∀ qs l', DynamicRun align l fields qs l' →
        WellPlaced fields qs ∧
          ∃ ps s', s.layoutFields align fields = some (ps,s') ∧
            Allocator.Agree (effectiveAlignment s.fieldAlignment) fields ps qs ∧
            (s.fieldAlignment = 1 → ps = qs) := by
  constructor
  · intro ps s' h
    exact wellPlaced_of_layoutFields halign hs h
  · intro qs l' h
    constructor
    · exact wellPlaced_of_dynamicRun halign hl h
    · obtain ⟨a,ha,hasize,halast⟩ := exists_represents_struct hs
      obtain ⟨b,hb,hbsize,hblast⟩ := exists_represents_dynamic hl
      obtain ⟨b',hqs,_⟩ := h.placedAll halign hb
      have hround := halign.rounding (τ := τ) s.fieldAlignment_pow
      have hstart : a.size = b.size := hasize.trans (hsize.trans hbsize.symm)
      obtain ⟨ps,a',hps,hagree⟩ := hqs.agree hround hstart halast hblast
      obtain ⟨s',hlayout,_⟩ := StructType.layoutFields_of_placedAll hps ha rfl
      refine ⟨ps,s',hlayout,hagree,fun hpack => ?_⟩
      apply placement_ext hagree.bits
      apply hagree.offsets.mpr
      intro d _
      rw [hpack,StructType.effectiveAlignment_one]
      exact Nat.one_dvd _

/-- Rounding up by division. -/
def alignUp (n a : ℕ) : ℕ := (n + (a - 1)) / a * a

theorem alignUp_roundsUp : RoundsUp alignUp := by
  have hspec : ∀ n k, n ≤ alignUp n (2 ^ k) ∧ alignUp n (2 ^ k) < n + 2 ^ k := by
    intro n k
    have hpos := Nat.two_pow_pos k
    have hdiv := Nat.div_add_mod' (n + (2 ^ k - 1)) (2 ^ k)
    unfold alignUp
    omega
  exact ⟨fun n k => (hspec n k).1,fun n k => (hspec n k).2,fun n k => Nat.dvd_mul_left _ _⟩

/-- A block of sixteen bytes. -/
def blockLayout : DynamicLayout Unit IntType := { bufferSize := 16 }

def bits (type : IntType) (bitCount : ℕ) (bigEndian : Bool) : FieldDecl IntType :=
  ⟨type,bitCount,⟨bigEndian,0⟩,fun _ => rfl⟩

theorem blockRun_bits {l l₂ l' : DynamicLayout Unit IntType} {value : ℕ}
    {fields : List (FieldDecl IntType)} (type : IntType) (bitCount : ℕ) (bigEndian : Bool)
    (hbits : bitCount ≠ 0)
    (hcall : l.addBitField none type bitCount ⟨bigEndian,0⟩ false = .returned value l₂)
    (hs : DynamicRun alignUp l₂ fields ps l') :
    DynamicRun alignUp l (bits type bitCount bigEndian :: fields)
      (⟨value / 2 ^ 8,value % 2 ^ 8,bitCount⟩ :: ps) l' :=
  .bitField (.refl l) hbits hcall hs

theorem bitFields_agree_mixed :
    ∃ ps s', (StructType.create 8 ⟨3,rfl⟩).layoutFields alignUp
        [bits .int8 3 false,bits .int8 4 false,bits .int32 12 true] = some (ps,s') ∧
      Allocator.Agree (effectiveAlignment 8)
        [bits .int8 3 false,bits .int8 4 false,bits .int32 12 true] ps
        [⟨0,0,3⟩,⟨0,3,4⟩,⟨1,20,12⟩] := by
  have hrun : DynamicRun alignUp blockLayout
      [bits .int8 3 false,bits .int8 4 false,bits .int32 12 true] _ _ :=
    blockRun_bits .int8 3 false (by decide) rfl
      (blockRun_bits .int8 4 false (by decide) rfl
        (blockRun_bits .int32 12 true (by decide) rfl (.done (.refl _))))
  have h := bitFields_agree alignUp_roundsUp (StructType.create 8 ⟨3,rfl⟩) blockLayout
    [bits .int8 3 false,bits .int8 4 false,bits .int32 12 true] rfl rfl rfl
  obtain ⟨_,ps,s',hlayout,hagree,_⟩ := h.2 _ _ hrun
  exact ⟨ps,s',hlayout,hagree⟩

/-- With natural alignment the second unit is moved in the struct only. -/
theorem naturalAlignment_differs :
    ¬ ∀ (fields : List (FieldDecl IntType)) (ps qs : List Placement) (s' : StructType IntType)
        (l' : DynamicLayout Unit IntType),
        (StructType.create 8 ⟨3,rfl⟩).layoutFields alignUp fields = some (ps,s') →
        DynamicRun alignUp blockLayout fields qs l' → ps = qs := by
  intro h
  have hrun : DynamicRun alignUp blockLayout [bits .int8 4 false,bits .int32 4 false] _ _ :=
    blockRun_bits .int8 4 false (by decide) rfl
      (blockRun_bits .int32 4 false (by decide) rfl (.done (.refl _)))
  have heq := h [bits .int8 4 false,bits .int32 4 false] [⟨0,0,4⟩,⟨4,0,4⟩] _ _ _ rfl hrun
  exact absurd heq (by decide)

end Jancy.Rtl
