import Jancy.Rtl.DynamicLayoutRun

/-! A layout coroutine that is fed in chunks does what it does when it is fed at once. -/
namespace Jancy.Rtl

open LayoutCore (Coherent)
open Ct (LayoutType IntType)

namespace LayoutRun

variable {S D τ : Type}

structure Invariant (c : LayoutRun S D τ) : Prop where
  coherent : Coherent c.layout.core
  running : ∀ s, c.pc = .running s → c.layout.awaitKind = .none

variable {l : DynamicLayout D τ}

theorem await_keeps (hl : Coherent l.core) (replies : List Reply) (reply : Option Reply)
    (resume : Reply → S) :
    (await l replies reply resume).Invariant ∧
      (await l replies reply resume).layout.core.contents = l.core.contents := by
  have hfresh : l.awaitKind ≠ .none → ∃ p, l.promise = some p ∧ p.completed = false := hl.fresh
  unfold await
  split
  case h_1 hnone =>
    refine ⟨⟨hl,fun _ _ => ?_⟩,rfl⟩
    by_contra hne
    obtain ⟨p,hp,-⟩ := hfresh hne
    simp [hnone] at hp
  case h_2 p hp =>
    split
    case isTrue hcompleted =>
      refine ⟨⟨hl,fun _ _ => ?_⟩,rfl⟩
      by_contra hne
      obtain ⟨p',hp',hc⟩ := hfresh hne
      rw [hp] at hp'
      cases hp'
      simp [hc] at hcompleted
    case isFalse hcompleted =>
      refine ⟨⟨⟨hl.idle,hl.await,hl.size,hl.char,fun _ => ⟨_,rfl,?_⟩⟩,fun s hs => ?_⟩,rfl⟩
      · simpa using hcompleted
      · cases hs

variable {c : LayoutRun S D τ}

theorem afterCall_keeps (hc : c.Invariant) {isAsync : Bool} {r : CallResult D τ}
    (hr : c.layout.Keeps isAsync r) (resume : Reply → S) :
    (c.afterCall isAsync resume r).Invariant ∧
      (c.afterCall isAsync resume r).layout.core.contents = c.layout.core.contents := by
  cases r with
  | assertion => exact ⟨⟨hc.coherent,fun s hs => by cases hs⟩,rfl⟩
  | threw l =>
    obtain ⟨hl,hcontents,hidle⟩ := hr
    exact ⟨⟨hl,fun _ _ => hidle⟩,hcontents⟩
  | returned value l =>
    obtain ⟨hl,hcontents,hawait⟩ := hr
    unfold afterCall
    dsimp only
    split
    case isTrue =>
      have := await_keeps hl c.replies (some (.value value)) resume
      exact ⟨this.1,this.2.trans hcontents⟩
    case isFalse hno =>
      refine ⟨⟨hl,fun _ _ => ?_⟩,hcontents⟩
      by_contra hne
      exact hno (hawait hne)
  | promised l =>
    have := await_keeps hr.1 c.replies none resume
    exact ⟨this.1,this.2.trans hr.2⟩

section

variable [LayoutType τ] [DecidableEq τ] {co : Coroutine S D τ}

theorem micro_keeps {c c' : LayoutRun S D τ} (hc : c.Invariant) (h : micro co c = some c') :
    c'.Invariant ∧ c'.layout.core.contents = c.layout.core.contents := by
  unfold micro at h
  split at h
  case h_1 s hs =>
    have hidle := hc.running s hs
    split at h
    case h_1 =>
      cases h
      exact ⟨⟨hc.coherent,fun s hs => by cases hs⟩,rfl⟩
    case h_2 call resume _ =>
      cases h
      exact afterCall_keeps hc (DynamicLayout.perform_keeps hc.coherent hidle call) resume
  case h_2 => cases h

theorem Segment.keeps {c c' : LayoutRun S D τ} (h : Segment co c c') (hc : c.Invariant) :
    c'.Invariant ∧ c'.layout.core.contents = c.layout.core.contents := by
  induction h with
  | halt => exact ⟨hc,rfl⟩
  | step hm _ ih =>
    obtain ⟨hinv,hcontents⟩ := micro_keeps hc hm
    obtain ⟨hinv',hcontents'⟩ := ih hinv
    exact ⟨hinv',hcontents'.trans hcontents⟩

theorem Segment.unique {c c₁ c₂ : LayoutRun S D τ} (h₁ : Segment co c c₁)
    (h₂ : Segment co c c₂) : c₁ = c₂ := by
  induction h₁ with
  | halt h =>
    cases h₂ with
    | halt => rfl
    | step h' => simp [h] at h'
  | step h _ ih =>
    cases h₂ with
    | halt h' => simp [h] at h'
    | step h' hs' =>
      have hc := Option.some.inj (h.symm.trans h')
      subst hc
      exact ih hs'

end

theorem unwind_keeps (hc : c.Invariant) :
    c.unwind.Invariant ∧ c.unwind.layout.core.contents = c.layout.core.contents := by
  refine ⟨⟨⟨hc.coherent.idle,hc.coherent.await,hc.coherent.size,hc.coherent.char,fun hne => ?_⟩,
    hc.running⟩,rfl⟩
  obtain ⟨p,hp,hcompleted⟩ := hc.coherent.fresh hne
  have hpromise : c.layout.promise = some p := hp
  exact ⟨p,by simp [unwind,DynamicLayout.core,hpromise,hcompleted],hcompleted⟩

theorem contents_of_await (h : l.awaitKind ≠ .none) :
    l.core.contents = l.buffer := if_neg h

theorem awaitKind_ne (h : l.isResumable = true) : l.awaitKind ≠ .none := by
  simp only [DynamicLayout.isResumable,Bool.and_eq_true,decide_eq_true_eq] at h
  exact h.2

theorem layout_satisfy_core (l : DynamicLayout D τ) (bytes : List Byte) :
    Coherent (l.satisfy bytes).core ∧ (l.satisfy bytes).core.contents = l.buffer ++ bytes ∧
      (l.satisfy bytes).awaitKind = .none := by
  have hcore : ∃ p, (l.satisfy bytes).core =
      ⟨l.buffer ++ bytes,l.buffer ++ bytes,true,p,l.size,(l.buffer ++ bytes).length,l.mode,.none,
        l.awaitChar⟩ := by
    unfold DynamicLayout.satisfy
    dsimp only
    split <;> exact ⟨_,rfl⟩
  obtain ⟨p,hp⟩ := hcore
  refine ⟨?_,by rw [hp]; rfl,congrArg LayoutCore.awaitKind hp⟩
  rw [hp]
  exact ⟨fun _ => ⟨rfl,fun _ => rfl⟩,fun hne => absurd rfl hne,fun h => (nomatch h),
    fun h => (nomatch h),fun hne => absurd rfl hne⟩

theorem satisfy_layout (c : LayoutRun S D τ) (bytes : List Byte) :
    (c.satisfy bytes).layout = c.layout.satisfy bytes := by
  unfold satisfy
  dsimp only
  split
  · split <;> rfl
  · rfl

theorem satisfy_keeps (c : LayoutRun S D τ) (bytes : List Byte) :
    (c.satisfy bytes).Invariant ∧
      (c.satisfy bytes).layout.core.contents = c.layout.buffer ++ bytes := by
  obtain ⟨hcoherent,hcontents,hidle⟩ := layout_satisfy_core c.layout bytes
  rw [← satisfy_layout] at hcoherent hcontents hidle
  exact ⟨⟨hcoherent,fun _ _ => hidle⟩,hcontents⟩

theorem packetLeftover_prefix {xs : List Byte} {n : ℕ} (ys : List Byte)
    (h : l.packetLeftover xs = some n) : l.packetLeftover (xs ++ ys) = some n := by
  unfold DynamicLayout.packetLeftover at h ⊢
  split at h
  · cases h
  · obtain ⟨hle,⟨⟩⟩ := Option.ite_none_left_eq_some.mp h
    rw [if_neg]
    rw [List.length_append]
    omega
  · rw [List.findIdx?_append,h]
    rfl

theorem packetLeftover_le {xs : List Byte} {n : ℕ} (h : l.packetLeftover xs = some n) :
    n ≤ xs.length := by
  unfold DynamicLayout.packetLeftover at h
  split at h
  · cases h
  · obtain ⟨hle,⟨⟩⟩ := Option.ite_none_left_eq_some.mp h
    omega
  · exact Nat.le_of_lt (List.findIdx?_eq_some_iff_findIdx_eq.mp h).1

theorem packetLeftover_append (hl : Coherent l.core) (hk : l.awaitKind ≠ .none) {xs ys : List Byte}
    (h : l.packetLeftover xs = none) :
    l.packetLeftover (xs ++ ys) =
      ((l.append xs).packetLeftover ys).map (xs.length + ·) := by
  have hlen : l.buffer.length = l.bufferSize := hl.await hk
  unfold DynamicLayout.packetLeftover at h ⊢
  cases hkind : l.awaitKind with
  | none => exact absurd hkind hk
  | size =>
    simp only [hkind] at h
    have hlt : xs.length < l.size - l.bufferSize := by
      by_contra hge
      simp [hge] at h
    simp only [DynamicLayout.append,hkind,List.length_append,hlen]
    by_cases hmore : xs.length + ys.length < l.size - l.bufferSize
    · rw [if_pos hmore,if_pos (by omega)]
      rfl
    · rw [if_neg hmore,if_neg (by omega)]
      simp only [Option.map_some,Option.some.injEq]
      omega
  | char =>
    simp only [hkind] at h
    simp only [DynamicLayout.append,hkind,List.findIdx?_append,h,Option.none_or]
    refine congrArg (fun f => Option.map f _) ?_
    funext n
    omega

theorem append_append (l : DynamicLayout D τ) (xs ys : List Byte) :
    (l.append xs).append ys = l.append (xs ++ ys) := by
  simp [DynamicLayout.append,List.append_assoc]

theorem append_coherent (hl : Coherent l.core) (hk : l.awaitKind ≠ .none) {xs : List Byte}
    (h : l.packetLeftover xs = none) : Coherent (l.append xs).core := by
  have hlen : l.buffer.length = l.bufferSize := hl.await hk
  refine ⟨fun hn => absurd hn hk,fun _ => rfl,fun hs => ?_,fun hc => ?_,hl.fresh⟩
  · have hkind : l.awaitKind = .size := hs
    have hlt : l.bufferSize < l.size := hl.size hs
    simp only [DynamicLayout.packetLeftover,hkind] at h
    have : xs.length < l.size - l.bufferSize := by
      by_contra hge
      simp [hge] at h
    change (l.buffer ++ xs).length < l.size
    rw [List.length_append]
    omega
  · have hkind : l.awaitKind = .char := hc
    have hnot : l.awaitChar ∉ l.buffer.drop l.size := hl.char hc
    simp only [DynamicLayout.packetLeftover,hkind] at h
    change l.awaitChar ∉ (l.buffer ++ xs).drop l.size
    rw [List.drop_append,List.mem_append]
    rintro (hm | hm)
    · exact hnot hm
    · exact DynamicLayout.findIdx?_none_not_mem h (List.mem_of_mem_drop hm)

theorem layout_satisfy_append (hl : Coherent l.core) (hk : l.awaitKind ≠ .none) (xs ys : List Byte) :
    (l.append xs).satisfy ys = l.satisfy (xs ++ ys) := by
  have hlen : l.buffer.length = l.bufferSize := hl.await hk
  simp [DynamicLayout.satisfy,DynamicLayout.append,List.append_assoc,hlen,Nat.add_assoc]

theorem satisfy_append (hc : c.Invariant) (hk : c.layout.awaitKind ≠ .none) (xs ys : List Byte) :
    ({ c with layout := c.layout.append xs } : LayoutRun S D τ).satisfy ys =
      c.satisfy (xs ++ ys) := by
  unfold satisfy
  simp only [layout_satisfy_append hc.coherent hk]
  rfl

theorem start_invariant (l : DynamicLayout D τ) (sink : Bool) (data : List Byte) (s : S) :
    (start l sink data s).Invariant :=
  ⟨⟨fun _ => ⟨rfl,fun h => (nomatch h)⟩,fun hne => absurd rfl hne,fun h => (nomatch h),
    fun h => (nomatch h),fun hne => absurd rfl hne⟩,fun _ _ => rfl⟩

variable [LayoutType τ] [DecidableEq τ]

theorem reader_lawful (co : Coroutine S D τ) :
    Feed.Lawful (reader co) (Invariant (S := S) (D := D) (τ := τ)) where
  demand_le h := packetLeftover_le h
  demand_prefix ys h := packetLeftover_prefix ys h
  demand_store hc ha _ _ h := packetLeftover_append hc.coherent (awaitKind_ne ha) h
  awaiting_store _ ha := ha
  store_store {c} xs ys _ _ :=
    congrArg (fun l => ({ c with layout := l } : LayoutRun S D τ)) (append_append c.layout xs ys)
  satisfy_store xs ys hc ha := satisfy_append hc (awaitKind_ne ha) xs ys
  store_inv hc ha h :=
    ⟨append_coherent hc.coherent (awaitKind_ne ha) h,hc.running⟩
  wake_inv {c xs c'} _ _ hw := by
    obtain ⟨c₁,hs,rfl⟩ := hw
    exact (unwind_keeps (hs.keeps (satisfy_keeps c xs).1).1).1

theorem wake_unique (co : Coroutine S D τ) (c c₁ c₂ : LayoutRun S D τ)
    (h₁ : (reader co).Wake c c₁) (h₂ : (reader co).Wake c c₂) : c₁ = c₂ := by
  obtain ⟨d₁,hs₁,rfl⟩ := h₁
  obtain ⟨d₂,hs₂,rfl⟩ := h₂
  rw [hs₁.unique hs₂]

/-- The await is not satisfied by the data at hand. -/
def StillNeeds (l : DynamicLayout D τ) : Prop :=
  (l.awaitKind = .size ∧ l.bufferSize < l.size) ∨
    (l.awaitKind = .char ∧ l.awaitChar ∉ l.buffer.drop l.size)

omit [LayoutType τ] [DecidableEq τ] in
theorem Invariant.stillNeeds (hc : c.Invariant) (ha : c.layout.isResumable = true) :
    StillNeeds c.layout := by
  cases hk : c.layout.awaitKind with
  | none => exact absurd hk (awaitKind_ne ha)
  | size => exact .inl ⟨hk,hc.coherent.size hk⟩
  | char => exact .inr ⟨hk,hc.coherent.char hk⟩

/-- A coroutine that scans to the end of a line and then lays out four bytes. -/
def lineCoroutine : Coroutine ℕ ℕ IntType where
  next
    | 0 => some (.asyncScanTo 10,fun _ => 1)
    | 1 => some (.addField none .int32 ⟨false,0⟩ true,fun _ => 2)
    | _ => none

end LayoutRun
end Jancy.Rtl
