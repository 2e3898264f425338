import Jancy.Rtl.DynamicLayout
import Jancy.Ct.StructLayout

/-! Where a dynamic layout puts the fields declared in its coroutine, and how that compares with a
struct of the same fields. -/
namespace Jancy.Rtl

open Ct (LayoutType FieldDecl Placement StructType Allocator LastBits)

variable {D τ : Type}

/-- What `addBitField` goes by is the same in both. -/
structure SamePlace (l l' : DynamicLayout D τ) : Prop where
  size : l'.size = l.size
  lastBitFieldType : l'.lastBitFieldType = l.lastBitFieldType
  lastBitOffset : l'.lastBitOffset = l.lastBitOffset
  lastBitCount : l'.lastBitCount = l.lastBitCount

namespace SamePlace

variable {l l' l'' : DynamicLayout D τ}

theorem refl (l : DynamicLayout D τ) : SamePlace l l := ⟨rfl,rfl,rfl,rfl⟩

theorem trans (h : SamePlace l l') (h' : SamePlace l' l'') : SamePlace l l'' :=
  ⟨h'.size.trans h.size,h'.lastBitFieldType.trans h.lastBitFieldType,
    h'.lastBitOffset.trans h.lastBitOffset,h'.lastBitCount.trans h.lastBitCount⟩

theorem of_preparePromise (h : l.preparePromise = some l') : SamePlace l l' := by
  unfold DynamicLayout.preparePromise at h
  split at h
  · cases h
    exact ⟨rfl,rfl,rfl,rfl⟩
  · split at h
    · cases h
      exact ⟨rfl,rfl,rfl,rfl⟩
    · cases h

theorem of_prepareForAwait (h : l.prepareForAwait = some l') : SamePlace l l' := by
  unfold DynamicLayout.prepareForAwait at h
  have hprepare := of_preparePromise h
  split at hprepare
  · exact hprepare
  · exact ⟨hprepare.size,hprepare.lastBitFieldType,hprepare.lastBitOffset,hprepare.lastBitCount⟩

theorem append (l : DynamicLayout D τ) (bytes : List Byte) : SamePlace l (l.append bytes) :=
  ⟨rfl,rfl,rfl,rfl⟩

theorem satisfy (l : DynamicLayout D τ) (bytes : List Byte) : SamePlace l (l.satisfy bytes) := by
  unfold DynamicLayout.satisfy
  dsimp only
  split <;> exact ⟨rfl,rfl,rfl,rfl⟩

theorem report (l : DynamicLayout D τ) (status : SizeStatus) (decl : Option D) (type : τ)
    (params : NotificationParams) : SamePlace l (l.report status decl type params) := by
  unfold DynamicLayout.report
  split
  · dsimp only
    split <;> exact ⟨rfl,rfl,rfl,rfl⟩
  · exact refl l

end SamePlace

/-- The layout after a call that did not fail an assertion. -/
def CallResult.layout : CallResult D τ → Option (DynamicLayout D τ)
  | .assertion => none
  | .threw l | .returned _ l | .promised l => some l

def LayoutCall.isSection : LayoutCall D τ → Bool
  | .addStruct _ _ | .addArray _ _ _ _ _ | .addField _ _ _ _ | .addBitField _ _ _ _ _ => true
  | _ => false

variable {l l' : DynamicLayout D τ}

theorem SamePlace.asyncScanTo {c : Byte} (h : (l.asyncScanTo c).layout = some l') :
    SamePlace l l' := by
  unfold DynamicLayout.asyncScanTo at h
  split at h
  · cases h
    exact refl l
  · split at h <;> split at h <;> cases h <;> rename_i hprepare
    · have hsame := of_prepareForAwait hprepare
      exact ⟨hsame.size,hsame.lastBitFieldType,hsame.lastBitOffset,hsame.lastBitCount⟩
    · have hsame := of_preparePromise hprepare
      exact ⟨hsame.size,hsame.lastBitFieldType,hsame.lastBitOffset,hsame.lastBitCount⟩
    · have hsame := of_preparePromise hprepare
      exact ⟨hsame.size,hsame.lastBitFieldType,hsame.lastBitOffset,hsame.lastBitCount⟩

variable [LayoutType τ] [DecidableEq τ]

theorem SamePlace.perform {call : LayoutCall D τ} (hcall : call.isSection = false)
    (h : (call.perform l).layout = some l') :
    SamePlace l l' := by
  cases call with
  | asyncScanTo c => exact asyncScanTo h
  | openGroup decl =>
    cases h
    dsimp only
    split <;> exact ⟨rfl,rfl,rfl,rfl⟩
  | closeGroups count =>
    cases h
    dsimp only
    split <;> exact ⟨rfl,rfl,rfl,rfl⟩
  | setSizeLimit sizeLimit =>
    cases h
    exact ⟨rfl,rfl,rfl,rfl⟩
  | addStruct | addArray | addField | addBitField => cases hcall

/-- What may happen between two sections: other calls, awaits, and bytes that come in. -/
inductive Idle : DynamicLayout D τ → DynamicLayout D τ → Prop
  | refl (l : DynamicLayout D τ) : Idle l l
  | call {l l₁ l' : DynamicLayout D τ} {call : LayoutCall D τ} (hcall : call.isSection = false)
      (h : (call.perform l).layout = some l₁) (hs : Idle l₁ l') : Idle l l'
  | await {l l' : DynamicLayout D τ} (promise auxPromise : Option LayoutPromise)
      (hs : Idle { l with promise, auxPromise } l') : Idle l l'
  | append {l l' : DynamicLayout D τ} (bytes : List Byte) (hs : Idle (l.append bytes) l') :
      Idle l l'
  | satisfy {l l' : DynamicLayout D τ} (bytes : List Byte) (hs : Idle (l.satisfy bytes) l') :
      Idle l l'

theorem Idle.samePlace (h : Idle l l') : SamePlace l l' := by
  induction h with
  | refl l => exact .refl l
  | call hcall h _ ih => exact (SamePlace.perform hcall h).trans ih
  | await _ _ _ ih => exact ⟨ih.size,ih.lastBitFieldType,ih.lastBitOffset,ih.lastBitCount⟩
  | append bytes _ ih => exact (SamePlace.append _ bytes).trans ih
  | satisfy bytes _ ih => exact (SamePlace.satisfy _ bytes).trans ih

def shift (offset : ℕ) (p : Placement) : Placement := { p with offset := offset + p.offset }

/-- The calls that the declarations of a coroutine are compiled to, and where these put the fields.
Plain fields without dynamic attributes are gathered in packed structs. -/
inductive DynamicRun (align : ℕ → ℕ → ℕ) :
    DynamicLayout D τ → List (FieldDecl τ) → List Placement → DynamicLayout D τ → Prop
  | done {l l' : DynamicLayout D τ} (hidle : Idle l l') : DynamicRun align l [] [] l'
  | bitField {l l₁ l₂ l' : DynamicLayout D τ} {decl : Option D} {isAsync : Bool} {value : ℕ}
      {field : FieldDecl τ} {fields : List (FieldDecl τ)} {ps : List Placement}
      (hidle : Idle l l₁) (hbits : field.bitCount ≠ 0)
      (hcall : l₁.addBitField decl field.type field.bitCount field.flags isAsync =
        .returned value l₂)
      (hs : DynamicRun align l₂ fields ps l') :
      DynamicRun align l (field :: fields)
        (⟨value / 2 ^ 8,value % 2 ^ 8,field.bitCount⟩ :: ps) l'
  | field {l l₁ l₂ l' : DynamicLayout D τ} {decl : Option D} {isAsync : Bool} {offset : ℕ}
      {field : FieldDecl τ} {fields : List (FieldDecl τ)} {ps : List Placement}
      (hidle : Idle l l₁) (hplain : field.bitCount = 0)
      (hcall : l₁.addField decl field.type field.flags isAsync = .returned offset l₂)
      (hs : DynamicRun align l₂ fields ps l') :
      DynamicRun align l (field :: fields) (⟨offset,0,0⟩ :: ps) l'
  | structSection {l l₁ l₂ l' : DynamicLayout D τ} {isAsync : Bool} {offset : ℕ} {type : τ}
      {struct : StructType τ} {section_ fields : List (FieldDecl τ)} {ps₁ ps : List Placement}
      (hidle : Idle l l₁) (hne : section_ ≠ []) (hplain : ∀ field ∈ section_, field.bitCount = 0)
      (hlayout : (StructType.create 1 ⟨0,rfl⟩).layoutFields align section_ = some (ps₁,struct))
      (hsize : LayoutType.size type = struct.size align)
      (hcall : l₁.addStruct type isAsync = .returned offset l₂)
      (hs : DynamicRun align l₂ fields ps l') :
      DynamicRun align l (section_ ++ fields) (ps₁.map (shift offset) ++ ps) l'

/-- The allocator `a` is what `l` knows of its units. -/
structure Represents (l : DynamicLayout D τ) (a : Allocator τ) : Prop where
  size : l.size = a.size
  type : l.lastBitFieldType = a.last.map LastBits.type
  bits : ∀ bits ∈ a.last, l.lastBitOffset = bits.bitOffset ∧ l.lastBitCount = bits.bitCount

variable {l l' : DynamicLayout D τ} {a a' : Allocator τ} {field : FieldDecl τ} {p : Placement}

omit [DecidableEq τ] in
theorem SamePlace.represents (h : SamePlace l l') (hl : Represents l a) : Represents l' a := by
  constructor
  · exact h.size.trans hl.size
  · exact h.lastBitFieldType.trans hl.type
  · rw [h.lastBitOffset,h.lastBitCount]
    exact hl.bits

variable {isAsync : Bool}

omit [LayoutType τ] [DecidableEq τ] in
theorem addSize_size {size : ℕ} {status : SizeStatus}
    (h : l.addSize size isAsync = some (status,l')) (hstatus : status ≠ .error) :
    l'.size = l.size + size := by
  unfold DynamicLayout.addSize at h
  split at h
  · cases h
    exact absurd rfl hstatus
  · dsimp only at h
    split at h
    · cases h
      rfl
    · split at h
      · cases h
        exact absurd rfl hstatus
      · obtain ⟨l₁,hprepare,heq⟩ := Option.map_eq_some_iff.mp h
        have hsame := SamePlace.of_prepareForAwait hprepare
        cases heq
        exact hsame.size

omit [LayoutType τ] [DecidableEq τ] in
theorem returned_of_ofAdded {added : Option (SizeStatus × DynamicLayout D τ)}
    {go : SizeStatus → DynamicLayout D τ → CallResult D τ} {value : ℕ}
    (h : CallResult.ofAdded added go = .returned value l') :
    ∃ status l₁, added = some (status,l₁) ∧ status ≠ .error ∧
      go status l₁ = .returned value l' := by
  unfold CallResult.ofAdded at h
  split at h
  · cases h
  · cases h
  · rename_i status l₁ hstatus
    exact ⟨status,l₁,rfl,hstatus,h⟩

omit [DecidableEq τ] in
theorem addStruct_spec {type : τ} {offset : ℕ} (h : l.addStruct type isAsync = .returned offset l') :
    offset = l.size ∧ l'.size = l.size + LayoutType.size type ∧ l'.lastBitFieldType = none := by
  obtain ⟨status,l₁,hadd,hstatus,hgo⟩ := returned_of_ofAdded h
  cases hgo
  exact ⟨rfl,(SamePlace.report _ _ _ _ _).size.trans (addSize_size hadd hstatus),rfl⟩

omit [DecidableEq τ] in
theorem addField_spec {decl : Option D} {type : τ} {flags : Ct.PtrTypeFlags} {offset : ℕ}
    (h : l.addField decl type flags isAsync = .returned offset l') :
    offset = l.size ∧ l'.size = l.size + LayoutType.size type ∧ l'.lastBitFieldType = none := by
  obtain ⟨status,l₁,hadd,hstatus,hgo⟩ := returned_of_ofAdded h
  cases hgo
  exact ⟨rfl,(SamePlace.report _ _ _ _ _).size.trans (addSize_size hadd hstatus),rfl⟩

omit [DecidableEq τ] in
theorem Represents.of_plain (hsize : l.size = a.size) (hlast : l.lastBitFieldType = none)
    (ha : a.last = none) : Represents l a :=
  ⟨hsize,by rw [hlast,ha]; rfl,by simp [ha]⟩

theorem mergeBitField_merged {last : LastBits τ} {b : ℕ} (h : Represents l a)
    (hlast : a.last = some last) (hnext : Ct.nextOffset last field = some b) :
    l.mergeBitField field.type field.bitCount field.flags = (true,b) := by
  have htype := h.type
  rw [hlast,Option.map_some,Ct.nextOffset_type hnext] at htype
  obtain ⟨hoffset,hcount⟩ := h.bits last hlast
  unfold Ct.nextOffset at hnext
  unfold DynamicLayout.mergeBitField
  rw [hoffset,hcount,htype]
  split at hnext
  · cases hnext
  · split at hnext <;> rename_i hbig <;> split at hnext <;> rename_i hfit <;> cases hnext
    · simp [hbig,hfit]
    · simp [hbig,hfit]

theorem mergeBitField_fresh (h : Represents l a)
    (hnext : ∀ last ∈ a.last, Ct.nextOffset last field = none) :
    l.mergeBitField field.type field.bitCount field.flags = (false,Ct.freshOffset field) := by
  have htype := h.type
  unfold DynamicLayout.mergeBitField Ct.freshOffset
  cases hlast : a.last with
  | none =>
    rw [hlast,Option.map_none] at htype
    rw [htype]
    simp only [reduceCtorEq,decide_false,Bool.not_false,if_true]
    split <;> rfl
  | some last =>
    have hnone := hnext last hlast
    obtain ⟨hoffset,hcount⟩ := h.bits last hlast
    rw [hlast,Option.map_some] at htype
    rw [hoffset,hcount,htype]
    unfold Ct.nextOffset at hnone
    split at hnone
    · rename_i hne
      simp only [Option.some.injEq,hne,decide_false,Bool.not_false,if_true]
      split <;> rfl
    · rename_i heq
      have heq : last.type = field.type := not_not.mp heq
      rw [heq]
      split at hnone <;> rename_i hbig <;> split at hnone <;> rename_i hfit <;> cases hnone
      · simp [hbig,hfit]
      · simp [hbig,hfit]

omit [DecidableEq τ] in
theorem decode_value (field : FieldDecl τ) (offset : ℕ) {b : ℕ} (hbits : field.bitCount ≠ 0)
    (hin : b + field.bitCount ≤ LayoutType.size field.type * 8) :
    (offset * 2 ^ 8 + b) / 2 ^ 8 = offset ∧ (offset * 2 ^ 8 + b) % 2 ^ 8 = b := by
  have hsize := LayoutType.size_le field.type (field.integer hbits)
  omega

theorem addBitField_inv {decl : Option D} {type : τ} {bitCount value b : ℕ}
    {flags : Ct.PtrTypeFlags} {isAsync isMerged : Bool}
    (hmerge : l.mergeBitField type bitCount flags = (isMerged,b))
    (h : l.addBitField decl type bitCount flags isAsync = .returned value l') :
    bitCount ≤ LayoutType.size type * 8 ∧
      value = (if isMerged then l.size - LayoutType.size type else l.size) * 2 ^ 8 + b ∧
      l'.size = (if isMerged then l.size else l.size + LayoutType.size type) ∧
      l'.lastBitFieldType = some type ∧ l'.lastBitOffset = b ∧ l'.lastBitCount = bitCount := by
  unfold DynamicLayout.addBitField at h
  dsimp only at h
  split at h
  · cases h
  · rename_i hfit
    rw [hmerge] at h
    obtain ⟨status,l₁,hadd,hstatus,hgo⟩ := returned_of_ofAdded h
    cases hgo
    refine ⟨Nat.le_of_not_lt hfit,rfl,?_,rfl,rfl,rfl⟩
    refine (SamePlace.report _ _ _ _ _).size.trans ?_
    cases isMerged with
    | true =>
      cases hadd
      rfl
    | false => exact addSize_size hadd hstatus

theorem addBitField_placed {decl : Option D} {value : ℕ} (h : Represents l a)
    (hbits : field.bitCount ≠ 0)
    (hcall : l.addBitField decl field.type field.bitCount field.flags isAsync =
      .returned value l') :
    ∃ a', Allocator.Placed Allocator.packed a field ⟨value / 2 ^ 8,value % 2 ^ 8,field.bitCount⟩ a' ∧
      Represents l' a' := by
  have hfit := (addBitField_inv (Prod.eta _).symm hcall).1
  obtain ⟨p,a',hp⟩ := Allocator.exists_placed Allocator.packed a hfit
  have hin := hp.inUnit.2
  rw [hp.inUnit.1] at hin
  cases hp with
  | plain hplain => exact absurd hplain hbits
  | @merged last bits _ hlast hnext htype hcount hsize hlast' =>
    have hinv := addBitField_inv (mergeBitField_merged h hlast hnext) hcall
    obtain ⟨_,rfl,hsize',htype',hoffset,hcount'⟩ := hinv
    obtain ⟨hdiv,hmod⟩ := decode_value field (l.size - LayoutType.size field.type) hbits hin
    refine ⟨a',?_,?_,?_,?_⟩
    · rw [if_pos rfl,hdiv,hmod,h.size]
      exact .merged hlast hnext htype hcount hsize hlast'
    · rw [hsize',hsize]
      exact h.size
    · rw [htype',hlast',Option.map_some,htype]
    · rw [hlast']
      simp [hoffset,hcount',hcount]
  | @opened bits _ hnext hfresh htype hcount hsize hlast =>
    have hinv := addBitField_inv (mergeBitField_fresh h hnext) hcall
    obtain ⟨_,rfl,hsize',htype',hoffset,hcount'⟩ := hinv
    rw [hfresh] at hin
    obtain ⟨hdiv,hmod⟩ := decode_value field l.size hbits hin
    refine ⟨a',?_,?_,?_,?_⟩
    · simp only [Bool.false_eq_true,if_false]
      rw [hdiv,hmod,h.size,← hfresh]
      exact .opened hnext hfresh htype hcount hsize hlast
    · rw [hsize',hsize,← h.size]
      rfl
    · rw [htype',hlast,Option.map_some,htype]
    · rw [hlast]
      simp [hoffset,hcount',hcount,hfresh]

end Jancy.Rtl
