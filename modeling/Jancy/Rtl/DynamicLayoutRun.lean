import Jancy.Rtl.DynamicLayout

/-! What the calls of a layout coroutine do to the data of the layout and to its await. -/
namespace Jancy.Rtl

open Ct (LayoutType PtrTypeFlags)

structure LayoutCore where
  buffer : List Byte
  ptr : List Byte
  inBuffer : Bool
  promise : Option LayoutPromise
  size : ℕ
  bufferSize : ℕ
  mode : DynamicLayoutMode
  awaitKind : DynamicLayoutAwaitKind
  awaitChar : Byte

def DynamicLayout.core {D τ : Type} (l : DynamicLayout D τ) : LayoutCore :=
  ⟨l.buffer,l.ptr,l.inBuffer,l.promise,l.size,l.bufferSize,l.mode,l.awaitKind,l.awaitChar⟩

namespace LayoutCore

/-- The data that the layout has got so far: what `m_ptr` points to, and during an await, when
that may be out of date, the buffer. -/
def contents (l : LayoutCore) : List Byte := if l.awaitKind = .none then l.ptr else l.buffer

/-- The buffer is what it has to be, and an await is not satisfied yet. -/
structure Coherent (l : LayoutCore) : Prop where
  idle : l.awaitKind = .none → l.ptr.length = l.bufferSize ∧ (l.inBuffer = true → l.ptr = l.buffer)
  await : l.awaitKind ≠ .none → l.buffer.length = l.bufferSize
  size : l.awaitKind = .size → l.bufferSize < l.size
  char : l.awaitKind = .char → l.awaitChar ∉ l.buffer.drop l.size
  fresh : l.awaitKind ≠ .none → ∃ p, l.promise = some p ∧ p.completed = false

theorem Coherent.contents_length {l : LayoutCore} (h : l.Coherent) :
    l.contents.length = l.bufferSize := by
  unfold contents
  split
  case isTrue hk => exact (h.idle hk).1
  case isFalse hk => exact h.await hk

theorem contents_of_idle {l : LayoutCore} (h : l.awaitKind = .none) : l.contents = l.ptr :=
  if_pos h

theorem Coherent.of_idle {l l' : LayoutCore} (h : l.Coherent) (hk : l.awaitKind = .none)
    (hk' : l'.awaitKind = .none) (hptr : l'.ptr = l.ptr) (hbuffer : l'.buffer = l.buffer)
    (hin : l'.inBuffer = l.inBuffer) (hsize : l'.bufferSize = l.bufferSize) : l'.Coherent where
  idle _ := by
    rw [hptr,hbuffer,hin,hsize]
    exact h.idle hk
  await hne := absurd hk' hne
  size hs := by rw [hk'] at hs; cases hs
  char hs := by rw [hk'] at hs; cases hs
  fresh hne := absurd hk' hne

end LayoutCore

open LayoutCore (Coherent)

namespace DynamicLayout

variable {D τ : Type}

@[simp] theorem core_report (l : DynamicLayout D τ) (status : SizeStatus) (decl : Option D)
    (type : τ) (params : NotificationParams) :
    (l.report status decl type params).core = l.core := by
  unfold report
  split
  · split <;> rfl
  · rfl

variable {l l' : DynamicLayout D τ}

theorem preparePromise_eq (h : l.preparePromise = some l') :
    l' = { l with auxPromise := l.promise, promise := some {} } := by
  unfold preparePromise at h
  split at h
  · cases h
    rfl
  · obtain ⟨-,⟨⟩⟩ := Option.ite_none_right_eq_some.mp h
    rfl

theorem prepareForAwait_eq (hl : Coherent l.core) (hk : l.awaitKind = .none)
    (h : l.prepareForAwait = some l') :
    l' = { l with buffer := l.ptr, auxPromise := l.promise, promise := some {} } := by
  obtain ⟨hlen,hin⟩ := hl.idle hk
  unfold prepareForAwait at h
  split at h
  case isTrue hb =>
    rw [preparePromise_eq h]
    have hptr : l.ptr = l.buffer := hin hb
    rw [hptr]
  case isFalse hb =>
    rw [preparePromise_eq h]
    have htake : l.ptr.take l.bufferSize = l.ptr := List.take_of_length_le (Nat.le_of_eq hlen)
    rw [htake]

/-- An idle layout whose data are those of `l`. -/
def IdleLike (l l' : DynamicLayout D τ) : Prop :=
  Coherent l'.core ∧ l'.core.contents = l.core.contents ∧ l'.awaitKind = .none

/-- The call leaves the data alone, and it begins an await only if the coroutine then waits. -/
def Keeps (l : DynamicLayout D τ) (isAsync : Bool) : CallResult D τ → Prop
  | .assertion => True
  | .threw l' => IdleLike l l'
  | .returned _ l' => Coherent l'.core ∧ l'.core.contents = l.core.contents ∧
      (l'.awaitKind ≠ .none → (isAsync && l'.shouldAwait) = true)
  | .promised l' => Coherent l'.core ∧ l'.core.contents = l.core.contents

theorem IdleLike.of_core (hl : Coherent l.core) (hk : l.awaitKind = .none)
    (hk' : l'.awaitKind = .none) (hptr : l'.ptr = l.ptr) (hbuffer : l'.buffer = l.buffer)
    (hin : l'.inBuffer = l.inBuffer) (hsize : l'.bufferSize = l.bufferSize) : IdleLike l l' := by
  refine ⟨hl.of_idle hk hk' hptr hbuffer hin hsize,?_,hk'⟩
  rw [LayoutCore.contents_of_idle (show l'.core.awaitKind = .none from hk'),
    LayoutCore.contents_of_idle (show l.core.awaitKind = .none from hk)]
  exact hptr

theorem addSize_keeps {l : DynamicLayout D τ} (hl : Coherent l.core) (hk : l.awaitKind = .none)
    (size : ℕ) (isAsync : Bool) {status : SizeStatus} {l' : DynamicLayout D τ}
    (h : l.addSize size isAsync = some (status,l')) :
    if status = .incomplete then
      Coherent l'.core ∧ l'.core.contents = l.core.contents ∧
        (isAsync && l'.shouldAwait) = true
    else IdleLike l l' := by
  unfold addSize at h
  split at h
  case isTrue =>
    cases h
    exact IdleLike.of_core hl hk hk rfl rfl rfl rfl
  case isFalse =>
    dsimp only at h
    split at h
    case isTrue =>
      cases h
      exact IdleLike.of_core hl hk hk rfl rfl rfl rfl
    case isFalse hmore =>
      split at h
      case isTrue =>
        cases h
        exact IdleLike.of_core hl hk hk rfl rfl rfl rfl
      case isFalse hstream =>
        obtain ⟨l₁,hprep,heq⟩ := Option.map_eq_some_iff.mp h
        cases heq
        have hl' : Coherent ({ l with size := l.size + size } : DynamicLayout D τ).core :=
          hl.of_idle hk hk rfl rfl rfl rfl
        have hl₁ := prepareForAwait_eq hl' hk hprep
        subst hl₁
        obtain ⟨hlen,-⟩ := hl.idle hk
        have hlt : l.bufferSize < l.size + size := by omega
        refine ⟨⟨fun hn => (nomatch hn),fun _ => hlen,fun _ => hlt,fun hn => (nomatch hn),
          fun _ => ⟨_,rfl,rfl⟩⟩,?_,?_⟩
        · exact (LayoutCore.contents_of_idle (show l.core.awaitKind = .none from hk)).symm
        · simp only [not_or,not_not] at hstream
          simp [shouldAwait,hstream.1,hstream.2,hlt]

/-- What the functions that add a section rely on. -/
def AddedOk (l : DynamicLayout D τ) (isAsync : Bool)
    (added : Option (SizeStatus × DynamicLayout D τ)) : Prop :=
  ∀ status l', added = some (status,l') →
    if status = .incomplete then
      Coherent l'.core ∧ l'.core.contents = l.core.contents ∧
        (isAsync && l'.shouldAwait) = true
    else IdleLike l l'

theorem shouldAwait_of_core (h : l'.core = l.core) :
    l'.shouldAwait = l.shouldAwait := by
  have hmode : l'.mode = l.mode := congrArg LayoutCore.mode h
  have hsize : l'.size = l.size := congrArg LayoutCore.size h
  have hbuffer : l'.bufferSize = l.bufferSize := congrArg LayoutCore.bufferSize h
  simp only [shouldAwait,hmode,hsize,hbuffer]

theorem ofAdded_keeps {l : DynamicLayout D τ} {isAsync : Bool}
    {added : Option (SizeStatus × DynamicLayout D τ)} (hadded : AddedOk l isAsync added)
    (value : ℕ) {record : SizeStatus → DynamicLayout D τ → DynamicLayout D τ}
    (hrecord : ∀ status l', (record status l').core = l'.core) :
    Keeps l isAsync (.ofAdded added fun status l' => .returned value (record status l')) := by
  unfold CallResult.ofAdded
  split
  case h_1 => trivial
  case h_2 l' => exact hadded _ l' rfl
  case h_3 status l' _ =>
    have hkeep := hadded status l' rfl
    have hcore := hrecord status l'
    have hawait : (record status l').awaitKind = l'.awaitKind :=
      congrArg LayoutCore.awaitKind hcore
    simp only [Keeps,hcore,hawait,shouldAwait_of_core hcore]
    split at hkeep
    · exact ⟨hkeep.1,hkeep.2.1,fun _ => hkeep.2.2⟩
    · exact ⟨hkeep.1,hkeep.2.1,fun hne => absurd hkeep.2.2 hne⟩

section

variable [LayoutType τ]

variable {l : DynamicLayout D τ}

theorem addStruct_keeps (hl : Coherent l.core) (hk : l.awaitKind = .none) (type : τ)
    (isAsync : Bool) : Keeps l isAsync (l.addStruct type isAsync) :=
  ofAdded_keeps (fun _ _ h => addSize_keeps hl hk _ isAsync h) l.size
    fun _ _ => core_report _ _ _ _ _

theorem addField_keeps (hl : Coherent l.core) (hk : l.awaitKind = .none) (decl : Option D)
    (type : τ) (ptrTypeFlags : PtrTypeFlags) (isAsync : Bool) :
    Keeps l isAsync (l.addField decl type ptrTypeFlags isAsync) :=
  ofAdded_keeps (fun _ _ h => addSize_keeps hl hk _ isAsync h) l.size
    fun _ _ => core_report _ _ _ _ _

theorem addArray_keeps (hl : Coherent l.core) (hk : l.awaitKind = .none) (decl : Option D)
    (type : τ) (elementCount : ℕ) (ptrTypeFlags : PtrTypeFlags) (isAsync : Bool) :
    Keeps l isAsync (l.addArray decl type elementCount ptrTypeFlags isAsync) := by
  have hidle : IdleLike l l := IdleLike.of_core hl hk hk rfl rfl rfl rfl
  unfold addArray
  cases getArraySize type elementCount with
  | none => exact hidle
  | some size =>
    dsimp only
    split
    · exact hidle
    · exact ofAdded_keeps (fun _ _ h => addSize_keeps hl hk _ isAsync h) l.size
        fun _ _ => core_report _ _ _ _ _

theorem addBitField_keeps [DecidableEq τ] (hl : Coherent l.core) (hk : l.awaitKind = .none)
    (decl : Option D) (type : τ) (bitCount : ℕ) (ptrTypeFlags : PtrTypeFlags) (isAsync : Bool) :
    Keeps l isAsync (l.addBitField decl type bitCount ptrTypeFlags isAsync) := by
  have hidle : IdleLike l l := IdleLike.of_core hl hk hk rfl rfl rfl rfl
  -- a merged field adds no bytes
  have hadded : ∀ (isMerged : Bool) (size : ℕ),
      AddedOk l isAsync (if isMerged then some (.complete,l) else l.addSize size isAsync) := by
    intro isMerged size status l' h
    split at h
    · cases h
      exact hidle
    · exact addSize_keeps hl hk size isAsync h
  unfold addBitField
  dsimp only
  split
  · exact hidle
  · exact ofAdded_keeps (hadded _ _) _ fun _ _ => core_report _ _ _ _ _

end

theorem findIdx?_none_not_mem {bytes : List Byte} {c : Byte}
    (h : bytes.findIdx? (· == c) = none) : c ∉ bytes := by
  intro hm
  have := List.findIdx?_eq_none_iff.mp h c hm
  simp at this

theorem asyncScanTo_keeps {l : DynamicLayout D τ} (hl : Coherent l.core)
    (hk : l.awaitKind = .none) (c : Byte) (isAsync : Bool) :
    Keeps l isAsync (l.asyncScanTo c) := by
  obtain ⟨hlen,-⟩ := hl.idle hk
  have hcontents := LayoutCore.contents_of_idle (show l.core.awaitKind = .none from hk)
  unfold asyncScanTo
  rw [if_neg (by simp [hk])]
  split
  case h_1 hfind _ =>
    cases hprep : l.prepareForAwait with
    | none => trivial
    | some l₁ =>
      have hl₁ := prepareForAwait_eq hl hk hprep
      subst hl₁
      have htake : l.ptr.take l.bufferSize = l.ptr := List.take_of_length_le (Nat.le_of_eq hlen)
      rw [htake] at hfind
      exact ⟨⟨fun hn => (nomatch hn),fun _ => hlen,fun hn => (nomatch hn),
        fun _ => findIdx?_none_not_mem hfind,fun _ => ⟨_,rfl,rfl⟩⟩,hcontents.symm⟩
  case h_2 =>
    cases hprep : l.preparePromise with
    | none => trivial
    | some l₁ =>
      have hl₁ := preparePromise_eq hprep
      subst hl₁
      let l' := ({ l with auxPromise := l.promise, promise := some {} } :
        DynamicLayout D τ).completePromise (some (subSize l.bufferSize l.size))
      have hidle : IdleLike l l' := IdleLike.of_core hl hk hk rfl rfl rfl rfl
      exact ⟨hidle.1,hidle.2.1⟩
  case h_3 distance _ =>
    cases hprep : l.preparePromise with
    | none => trivial
    | some l₁ =>
      have hl₁ := preparePromise_eq hprep
      subst hl₁
      let l' := ({ l with auxPromise := l.promise, promise := some {} } :
        DynamicLayout D τ).completePromise (some distance)
      have hidle : IdleLike l l' := IdleLike.of_core hl hk hk rfl rfl rfl rfl
      exact ⟨hidle.1,hidle.2.1⟩

theorem perform_keeps [LayoutType τ] [DecidableEq τ] {l : DynamicLayout D τ}
    (hl : Coherent l.core) (hk : l.awaitKind = .none) (call : LayoutCall D τ) :
    Keeps l call.isAsync (call.perform l) := by
  cases call with
  | asyncScanTo c => exact asyncScanTo_keeps hl hk c _
  | addStruct type isAsync => exact addStruct_keeps hl hk type isAsync
  | addArray decl type elementCount flags isAsync =>
    exact addArray_keeps hl hk decl type elementCount flags isAsync
  | addField decl type flags isAsync => exact addField_keeps hl hk decl type flags isAsync
  | addBitField decl type bitCount flags isAsync =>
    exact addBitField_keeps hl hk decl type bitCount flags isAsync
  | openGroup decl =>
    cases hs : l.sink <;> simp only [LayoutCall.perform,openGroup,hs] <;>
      exact ⟨hl,rfl,fun hne => absurd hk hne⟩
  | closeGroups count =>
    cases hs : l.sink <;> simp only [LayoutCall.perform,closeGroups,hs] <;>
      exact ⟨hl,rfl,fun hne => absurd hk hne⟩
  | setSizeLimit sizeLimit => exact ⟨hl,rfl,fun hne => absurd hk hne⟩

end DynamicLayout

end Jancy.Rtl
