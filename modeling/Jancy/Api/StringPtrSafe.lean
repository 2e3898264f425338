import Jancy.Api.StringPtr

/-! Which pointers and lengths keep the string functions inside the ranges of their pointers. -/
namespace Jancy.Api.StringPtr

variable {mem : Memory} {ptr ptr1 ptr2 dstPtr srcPtr : DataPtr} {v : Validator} {length : Size}

variable {p : Address}

theorem memchr_some {size i : ℕ} (h : memchr mem p size = some i) :
    i < size ∧ mem (p + BitVec.ofNat 64 i) = 0 := by
  induction size generalizing p i with
  | zero => cases h
  | succ size ih =>
    rw [memchr] at h
    split at h
    next hzero =>
      cases h
      exact ⟨Nat.succ_pos _,by simpa using hzero⟩
    next =>
      obtain ⟨j,hj,rfl⟩ := Option.map_eq_some_iff.1 h
      obtain ⟨hlt,hmem⟩ := ih hj
      have heq : p + BitVec.ofNat 64 (j + 1) = p + 1 + BitVec.ofNat 64 j := by
        rw [BitVec.ofNat_add,BitVec.add_comm (BitVec.ofNat 64 j),← BitVec.add_assoc]
        rfl
      exact ⟨Nat.succ_lt_succ hlt,heq ▸ hmem⟩

variable {size : ℕ}

theorem memchr_of_zero (hsize : 0 < size) (h : mem p = 0) :
    memchr mem p size = some 0 := by
  obtain ⟨n,rfl⟩ := Nat.exists_eq_succ_of_ne_zero hsize.ne'
  rw [memchr,if_pos h]

theorem memchrSize_le (mem : Memory) (p : Address) (size : ℕ) : memchrSize mem p size ≤ size := by
  unfold memchrSize
  split
  next => exact le_rfl
  next i hi => exact (memchr_some hi).1

theorem memchrSize_pos (mem : Memory) (p : Address) (h : 0 < size) : 0 < memchrSize mem p size := by
  unfold memchrSize
  split
  next => exact h
  next => exact Nat.succ_pos _

theorem isSkipped_eq_false :
    isSkipped ptr v = false ↔
      v.rangeBegin.toNat ≤ ptr.p.toNat ∧ v.isTargetBoxInvalid = false := by
  simp [isSkipped,BitVec.le_def]

theorem sub_toNat_of_le {a b : Address} (h : a.toNat ≤ b.toNat) :
    (b - a).toNat = b.toNat - a.toNat := BitVec.toNat_sub_of_le h

theorem sub_pos_of_lt {a b : Address} (h : b.toNat < a.toNat) : 0 < (b - a).toNat := by
  rw [BitVec.toNat_sub]
  omega

theorem scan_inRange_iff (mem : Memory) (h : isSkipped ptr v = false) :
    Access.InRange ⟨some v,ptr.p,memchrSize mem ptr.p (v.rangeEnd - ptr.p).toNat,false⟩ ↔
      ptr.p.toNat ≤ v.rangeEnd.toNat := by
  have hbegin := (isSkipped_eq_false.1 h).1
  constructor
  · intro hin
    by_contra hpast
    have hpos := memchrSize_pos mem ptr.p (sub_pos_of_lt (Nat.lt_of_not_le hpast))
    rcases hin with hzero | ⟨w,hw,_,hend⟩
    · exact hpos.ne' hzero
    · cases hw
      simp only at hend
      omega
  · intro hend
    refine Or.inr ⟨v,rfl,hbegin,?_⟩
    have hle := memchrSize_le mem ptr.p (v.rangeEnd - ptr.p).toNat
    rw [sub_toNat_of_le hend] at hle ⊢
    simp only
    omega

theorem strLenAccesses_inRange_iff :
    (∀ a ∈ strLenAccesses mem ptr, a.InRange) ↔ ptr.NotPast := by
  unfold strLenAccesses DataPtr.NotPast
  cases hv : ptr.validator with
  | none => simp
  | some v =>
    cases hskip : isSkipped ptr v with
    | true => simp [hskip]
    | false => simpa [hskip] using scan_inRange_iff mem hskip

theorem strLen_inRange_iff : (strLen mem ptr).InRange ↔ ptr.NotPast :=
  strLenAccesses_inRange_iff

theorem strLenSize_toNat (mem : Memory) (h : ptr.NotPast) : (strLenSize mem ptr).toNat = ptr.content mem := by
  unfold strLenSize DataPtr.content
  cases hv : ptr.validator with
  | none => rfl
  | some v =>
    cases hskip : isSkipped ptr v with
    | true => simp [hskip]
    | false =>
      have hsize := sub_toNat_of_le (h v hv hskip)
      simp only [hskip,Bool.false_eq_true,if_false,← hsize]
      cases hfound : memchr mem ptr.p (v.rangeEnd - ptr.p).toNat with
      | none => rfl
      | some i =>
        have hi := (memchr_some hfound).1
        have := (v.rangeEnd - ptr.p).isLt
        exact Nat.mod_eq_of_lt (by omega)

theorem content_le (h : ptr.validator = some v) (hpos : 0 < ptr.content mem) :
    v.rangeBegin.toNat ≤ ptr.p.toNat ∧
      ptr.p.toNat + ptr.content mem ≤ v.rangeEnd.toNat := by
  unfold DataPtr.content at hpos ⊢
  rw [h] at hpos ⊢
  cases hskip : isSkipped ptr v with
  | true => simp [hskip] at hpos
  | false =>
    simp only [hskip,Bool.false_eq_true,if_false] at hpos ⊢
    refine ⟨(isSkipped_eq_false.1 hskip).1,?_⟩
    cases hfound : memchr mem ptr.p (v.rangeEnd.toNat - ptr.p.toNat) with
    | none =>
      rw [hfound] at hpos
      simp only [Option.getD_none] at hpos ⊢
      omega
    | some i =>
      have hi := (memchr_some hfound).1
      simp only [Option.getD_some]
      omega

theorem content_pos (hpos : 0 < ptr.content mem) : ∃ v, ptr.validator = some v := by
  cases hv : ptr.validator with
  | none => simp [DataPtr.content,hv] at hpos
  | some v => exact ⟨v,rfl⟩

theorem content_inRange {isWrite : Bool} (h : size ≤ ptr.content mem) :
    Access.InRange ⟨ptr.validator,ptr.p,size,isWrite⟩ := by
  rcases Nat.eq_zero_or_pos size with hzero | hpos
  · exact Or.inl hzero
  · obtain ⟨v,hv⟩ := content_pos (hpos.trans_le h)
    obtain ⟨hbegin,hend⟩ := content_le hv (hpos.trans_le h)
    exact Or.inr ⟨v,hv,hbegin,(Nat.add_le_add_left h _).trans hend⟩

theorem sound_of_le {ptr_sz : DataPtr} (hv : ptr.validator = some v)
    (hbegin : v.rangeBegin.toNat ≤ ptr.p.toNat)
    (hend : ptr.p.toNat + length.toNat ≤ v.rangeEnd.toNat)
    (hsz : ptr_sz.p ≠ 0 →
      ptr.p.toNat + length.toNat < v.rangeEnd.toNat ∧ mem (ptr.p + length) = 0) :
    String.Sound mem ⟨ptr,ptr_sz,length⟩ where
  inRange := Or.inr ⟨v,hv,hbegin,hend⟩
  terminated h := ⟨v,hv,hbegin,hsz h⟩

theorem sound_empty (mem : Memory) (ptr : DataPtr) :
    String.Sound mem ⟨ptr,nullDataPtr,0⟩ where
  inRange := Or.inl rfl
  terminated h := absurd rfl h

theorem Sound.toNat_le {ptr_sz : DataPtr} (h : String.Sound mem ⟨ptr,ptr_sz,length⟩)
    (hv : ptr.validator = some v) (hpos : 0 < length.toNat) :
    ptr.p.toNat + length.toNat ≤ v.rangeEnd.toNat := by
  rcases h.inRange with hzero | ⟨w,hw,_,hend⟩
  · have hzero : length = 0 := hzero
    rw [hzero] at hpos
    exact absurd hpos (Nat.lt_irrefl 0)
  · have heq : v = w := Option.some.inj (hv.symm.trans hw)
    exact heq ▸ hend

theorem setPtr_scanned_iff (hv : ptr.validator = some v) (hskip : isSkipped ptr v = false) :
    ((String.setPtr mem ptr (-1)).InRange ∧
      ∃ string, (String.setPtr mem ptr (-1)).result = some string ∧ string.Sound mem) ↔
      ptr.p.toNat ≤ v.rangeEnd.toNat := by
  have hbegin := (isSkipped_eq_false.1 hskip).1
  have hscan := scan_inRange_iff mem hskip
  simp only [String.setPtr,hv,hskip,Bool.false_eq_true,if_false,if_true,Effect.InRange,
    List.mem_singleton,forall_eq,hscan,Option.some.injEq,exists_eq_left']
  refine and_iff_left_of_imp fun hend => ?_
  have hsize := sub_toNat_of_le hend
  have hlt := (v.rangeEnd - ptr.p).isLt
  cases hfound : memchr mem ptr.p (v.rangeEnd - ptr.p).toNat with
  | none =>
    refine sound_of_le hv hbegin ?_ (fun h => absurd rfl h)
    omega
  | some i =>
    obtain ⟨hi,hzero⟩ := memchr_some hfound
    have hi_toNat : (BitVec.ofNat 64 i).toNat = i := Nat.mod_eq_of_lt (hi.trans hlt)
    refine sound_of_le hv hbegin ?_ (fun _ => ⟨?_,hzero⟩) <;> omega

theorem add_toNat (h : p.toNat + length.toNat < 2 ^ 64) :
    (p + length).toNat = p.toNat + length.toNat := by
  rw [BitVec.toNat_add,Nat.mod_eq_of_lt h]

/-- The length is given: around the end of the address space it is taken as it is. -/
theorem setPtr_given_iff (hv : ptr.validator = some v) (hskip : isSkipped ptr v = false)
    (hlength : length ≠ -1) :
    ((String.setPtr mem ptr length).InRange ∧
      ∃ string, (String.setPtr mem ptr length).result = some string ∧ string.Sound mem) ↔
      ptr.p.toNat ≤ v.rangeEnd.toNat ∧ ptr.p.toNat + length.toNat < 2 ^ 64 := by
  have hbegin := (isSkipped_eq_false.1 hskip).1
  have hend_lt := v.rangeEnd.isLt
  have hlength_lt := length.isLt
  simp only [String.setPtr,hv,hskip,Bool.false_eq_true,if_false,if_neg hlength]
  have hsum := BitVec.toNat_add ptr.p length
  by_cases hin : ptr.p + length < v.rangeEnd
  · have hin_toNat := BitVec.lt_def.1 hin
    simp only [if_pos hin,Effect.InRange,List.mem_singleton,forall_eq,Option.some.injEq,
      exists_eq_left']
    constructor
    · rintro ⟨_,hsound⟩
      rcases Nat.eq_zero_or_pos length.toNat with hzero | hpos
      · omega
      · have hle := Sound.toNat_le hsound hv hpos
        omega
    · rintro ⟨_,hwrap⟩
      have hadd := add_toNat hwrap
      refine ⟨Or.inr ⟨v,rfl,?_,hin_toNat⟩,sound_of_le hv hbegin ?_ fun hsz => ⟨?_,?_⟩⟩
      · show v.rangeBegin.toNat ≤ (ptr.p + length).toNat
        omega
      · omega
      · omega
      · by_contra hzero
        rw [if_neg hzero] at hsz
        exact hsz rfl
  · have hin_toNat : v.rangeEnd.toNat ≤ (ptr.p + length).toNat :=
      Nat.le_of_not_lt fun h => hin (BitVec.lt_def.2 h)
    simp only [if_neg hin,Effect.InRange,List.not_mem_nil,false_implies,implies_true,true_and,
      Option.some.injEq,exists_eq_left']
    constructor
    · intro hsound
      have hend : ptr.p.toNat ≤ v.rangeEnd.toNat := by
        by_contra hpast
        have hpos := sub_pos_of_lt (Nat.lt_of_not_le hpast)
        have hle := Sound.toNat_le hsound hv hpos
        omega
      exact ⟨hend,by omega⟩
    · rintro ⟨hend,_⟩
      have hsize := sub_toNat_of_le hend
      refine sound_of_le hv hbegin ?_ (fun h => absurd rfl h)
      omega

/-- A string is sound, with only bytes of the range looked at, exactly if the pointer is not past
the range and the length does not reach around the end of the address space. -/
theorem setPtr_iff (mem : Memory) (ptr : DataPtr) (length : Size) :
    ((String.setPtr mem ptr length).InRange ∧
      ∃ string, (String.setPtr mem ptr length).result = some string ∧ string.Sound mem) ↔
      ptr.NotPast ∧ ptr.Reaches length := by
  cases hv : ptr.validator with
  | none =>
    simp only [String.setPtr,hv,Effect.InRange,DataPtr.NotPast,DataPtr.Reaches]
    simpa using sound_empty mem ptr
  | some v =>
    cases hskip : isSkipped ptr v with
    | true =>
      simp only [String.setPtr,hv,hskip,Effect.InRange,DataPtr.NotPast,DataPtr.Reaches]
      simpa [hskip] using sound_empty mem ptr
    | false =>
      have hnotPast : ptr.NotPast ↔ ptr.p.toNat ≤ v.rangeEnd.toNat := by
        simp [DataPtr.NotPast,hv,hskip]
      have hreaches :
          ptr.Reaches length ↔ length = -1 ∨ ptr.p.toNat + length.toNat < 2 ^ 64 := by
        simp [DataPtr.Reaches,hv,hskip]
      rw [hnotPast,hreaches]
      by_cases hall : length = -1
      · subst hall
        simpa using setPtr_scanned_iff hv hskip
      · rw [or_iff_right hall]
        exact setPtr_given_iff hv hskip hall

theorem dstLength_toNat (p : Address) (v : Validator) :
    (if p < v.rangeEnd then v.rangeEnd - p else 0 : Size).toNat =
      v.rangeEnd.toNat - p.toNat := by
  split
  next h => exact sub_toNat_of_le (BitVec.lt_def.1 h).le
  next h =>
    have hend : v.rangeEnd.toNat ≤ p.toNat := Nat.le_of_not_lt fun hlt => h (BitVec.lt_def.2 hlt)
    exact (Nat.sub_eq_zero_of_le hend).symm

theorem rest_inRange {isWrite : Bool} (hbegin : v.rangeBegin.toNat ≤ p.toNat)
    (h : size ≤ v.rangeEnd.toNat - p.toNat) :
    Access.InRange ⟨some v,p,size,isWrite⟩ := by
  rcases Nat.eq_zero_or_pos size with hzero | hpos
  · exact Or.inl hzero
  · refine Or.inr ⟨v,rfl,hbegin,?_⟩
    show p.toNat + size ≤ v.rangeEnd.toNat
    omega

theorem begin_le_of_inRange {isWrite : Bool} (hpos : 0 < size)
    (h : Access.InRange ⟨some v,p,size,isWrite⟩) :
    v.rangeBegin.toNat ≤ p.toNat ∧ p.toNat + size ≤ v.rangeEnd.toNat := by
  rcases h with hzero | ⟨w,hw,hbegin,hend⟩
  · exact absurd hzero hpos.ne'
  · cases hw
    exact ⟨hbegin,hend⟩

/-- Copying is safe exactly if the destination is not below its range and the source is not past
its own. -/
theorem strCpy_inRange_iff (size : Size) :
    (strCpy mem dstPtr srcPtr size).InRange ↔
      ∀ v, dstPtr.validator = some v →
        v.rangeBegin.toNat ≤ dstPtr.p.toNat ∧ srcPtr.NotPast := by
  cases hv : dstPtr.validator with
  | none => simp [strCpy,hv,Effect.InRange]
  | some v =>
    have hdst := dstLength_toNat dstPtr.p v
    simp only [Option.some.injEq,forall_eq']
    simp only [strCpy,hv,Effect.InRange,List.forall_mem_append]
    rw [strLenAccesses_inRange_iff,and_comm (b := srcPtr.NotPast)]
    refine and_congr_right fun hsrc => ?_
    have hlength := strLenSize_toNat mem hsrc
    generalize (if dstPtr.p < v.rangeEnd then v.rangeEnd - dstPtr.p else 0 : Size) = dstLength
      at hdst ⊢
    split
    next hle =>
      have hle := BitVec.le_def.1 hle
      constructor
      · intro hin
        by_contra hbelow
        have := v.begin_le_end
        exact hbelow (begin_le_of_inRange (by omega) (hin _ (List.mem_cons_self ..))).1
      · intro hbegin a ha
        simp only [List.mem_cons,List.not_mem_nil,or_false] at ha
        rcases ha with rfl | rfl
        · exact rest_inRange hbegin hdst.le
        · exact content_inRange (hlength ▸ hle)
    next hlt =>
      have hlt : (strLenSize mem srcPtr).toNat < _ :=
        Nat.lt_of_not_le fun hle => hlt (BitVec.le_def.2 hle)
      rw [hdst] at hlt
      constructor
      · intro hin
        rcases Nat.eq_zero_or_pos (strLenSize mem srcPtr).toNat with hzero | hpos
        · have hend := hin ⟨some v,dstPtr.p + strLenSize mem srcPtr,1,true⟩ (by simp)
          rw [BitVec.eq_of_toNat_eq (y := 0#64) hzero,BitVec.add_zero] at hend
          exact (begin_le_of_inRange Nat.one_pos hend).1
        · exact (begin_le_of_inRange hpos (hin _ (List.mem_cons_self ..))).1
      · intro hbegin a ha
        have hadd : (dstPtr.p + strLenSize mem srcPtr).toNat = _ := add_toNat (by omega)
        simp only [List.mem_cons,List.not_mem_nil,or_false] at ha
        rcases ha with rfl | rfl | rfl
        · exact rest_inRange hbegin hlt.le
        · exact content_inRange hlength.le
        · exact rest_inRange (by omega) (by omega)

theorem content_lt (mem : Memory) (ptr : DataPtr) : ptr.content mem + 1 < 2 ^ 64 := by
  rcases Nat.eq_zero_or_pos (ptr.content mem) with hzero | hpos
  · omega
  · obtain ⟨v,hv⟩ := content_pos hpos
    obtain ⟨hbegin,hend⟩ := content_le hv hpos
    have := v.begin_pos
    have := v.rangeEnd.isLt
    omega

theorem ptr_ne_zero (hpos : 0 < ptr.content mem) : ptr.p ≠ 0 := by
  intro hzero
  obtain ⟨v,hv⟩ := content_pos hpos
  have hbegin := (content_le hv hpos).1
  rw [hzero] at hbegin
  exact absurd v.begin_pos (Nat.not_lt.2 hbegin)

theorem terminated_iff (isWrite : Bool) :
    Access.InRange ⟨ptr.validator,ptr.p,ptr.content mem + 1,isWrite⟩ ↔ ptr.Terminated mem := by
  constructor
  · rintro (hzero | ⟨v,hv,hbegin,hend⟩)
    · exact absurd hzero (Nat.succ_ne_zero _)
    · exact ⟨v,hv,hbegin,hend⟩
  · rintro ⟨v,hv,hbegin,hend⟩
    exact Or.inr ⟨v,hv,hbegin,hend⟩

theorem strCat_inRange_iff (allocateBuffer : (size : Size) → Option (Buffer size)) :
    (strCat mem allocateBuffer ptr1 ptr2).InRange ↔
      ptr1.NotPast ∧ ptr2.NotPast ∧
        (allocateBuffer (BitVec.ofNat 64 (ptr1.content mem + (ptr2.content mem + 1))) = none ∨
          (ptr2.p = 0 ∨ ptr2.Terminated mem) ∧
            ptr1.content mem + ptr2.content mem + 1 < 2 ^ 64) := by
  simp only [strCat,Effect.InRange,List.forall_mem_append,strLenAccesses_inRange_iff,and_assoc]
  refine and_congr_right fun h1 => and_congr_right fun h2 => ?_
  have hlength1 := strLenSize_toNat mem h1
  have hlength2 : (strLenSize mem ptr2 + 1).toNat = ptr2.content mem + 1 := by
    have := content_lt mem ptr2
    have hlength := strLenSize_toNat mem h2
    rw [add_toNat (by rw [hlength]; exact this),hlength]
    rfl
  have htotal : strLenSize mem ptr1 + (strLenSize mem ptr2 + 1) =
      BitVec.ofNat 64 (ptr1.content mem + (ptr2.content mem + 1)) := by
    refine BitVec.eq_of_toNat_eq ?_
    rw [BitVec.toNat_add,hlength1,hlength2,BitVec.toNat_ofNat]
  rw [← htotal,memCat]
  cases hbuffer : allocateBuffer (strLenSize mem ptr1 + (strLenSize mem ptr2 + 1)) with
  | none => simp
  | some buffer =>
    simp only [reduceCtorEq,false_or,hlength1,hlength2]
    have hend := buffer.end_toNat
    have hsum := BitVec.toNat_add (strLenSize mem ptr1) (strLenSize mem ptr2 + 1)
    rw [hlength1,hlength2] at hsum
    constructor
    · intro hin
      constructor
      · by_cases hnull : ptr2.p = 0
        · exact Or.inl hnull
        · refine Or.inr ((terminated_iff false).1 (hin _ (List.mem_append_right _ ?_)))
          rw [if_neg hnull]
          exact List.mem_cons_self ..
      · by_contra hwrap
        -- the buffer is smaller than the first string, which is not empty
        have hpos : 0 < ptr1.content mem := by omega
        have hwrite := hin ⟨some buffer.validator,buffer.p,ptr1.content mem,true⟩
          (List.mem_append_left _ (by rw [if_neg (ptr_ne_zero hpos)]; simp))
        have hfits := (begin_le_of_inRange hpos hwrite).2
        have hsmall : buffer.p.toNat + ptr1.content mem ≤ (buffer.p + _).toNat := hfits
        omega
    · rintro ⟨hterminated,hfits⟩
      have hadd : (buffer.p + strLenSize mem ptr1).toNat = _ := add_toNat (by omega)
      rw [List.forall_mem_append]
      constructor
      · intro a ha
        split at ha
        next => exact absurd ha List.not_mem_nil
        next =>
          simp only [List.mem_cons,List.not_mem_nil,or_false] at ha
          rcases ha with rfl | rfl
          · exact content_inRange le_rfl
          · refine rest_inRange le_rfl ?_
            show ptr1.content mem ≤ (buffer.p + _).toNat - buffer.p.toNat
            omega
      · intro a ha
        split at ha
        next => exact absurd ha List.not_mem_nil
        next hnull =>
          simp only [List.mem_cons,List.not_mem_nil,or_false] at ha
          rcases ha with rfl | rfl
          · exact (terminated_iff false).2 (hterminated.resolve_left hnull)
          · refine rest_inRange ?_ ?_
            · show buffer.p.toNat ≤ (buffer.p + strLenSize mem ptr1).toNat
              omega
            · show ptr2.content mem + 1 ≤
                (buffer.p + _).toNat - (buffer.p + strLenSize mem ptr1).toNat
              omega

theorem stringIncrement_sound {string : String} (h : string.Sound mem) (delta : Size) :
    (stringIncrement string delta).Sound mem := by
  unfold stringIncrement
  generalize hcut : (if delta ≥ string.length then string.length else delta) = cut
  have hcut_le : cut.toNat ≤ string.length.toNat := by
    rw [← hcut]
    split
    next => exact le_rfl
    next hlt => exact (BitVec.lt_def.1 (BitVec.not_le.1 hlt)).le
  by_cases hzero : cut = 0
  · simpa [hzero] using h
  have hpos : 0 < cut.toNat := Nat.pos_of_ne_zero fun h0 => hzero (BitVec.eq_of_toNat_eq h0)
  have hrest := sub_toNat_of_le hcut_le
  simp only [if_neg hzero]
  obtain hempty | ⟨v,hv,hbegin,hend⟩ := h.inRange
  · rw [hempty] at hcut_le
    exact absurd hcut_le (Nat.not_le.2 hpos)
  have hadd : (string.ptr.p + cut).toNat = _ := add_toNat (by omega)
  refine sound_of_le hv ?_ ?_ fun hsz => ?_
  · show v.rangeBegin.toNat ≤ (string.ptr.p + cut).toNat
    omega
  · show (string.ptr.p + cut).toNat + (string.length - cut).toNat ≤ v.rangeEnd.toNat
    omega
  · obtain ⟨w,hw,_,hlt,hmem⟩ := h.terminated fun h0 => hsz (by rw [if_pos h0]; exact h0)
    have heq : v = w := Option.some.inj (hv.symm.trans hw)
    subst heq
    refine ⟨?_,?_⟩
    · show (string.ptr.p + cut).toNat + (string.length - cut).toNat < v.rangeEnd.toNat
      omega
    · rw [← hmem]
      congr 1
      show string.ptr.p + cut + (string.length - cut) = string.ptr.p + string.length
      rw [BitVec.add_assoc,BitVec.add_comm cut,BitVec.sub_add_cancel]

theorem increments_sound {string : String} (h : string.Sound mem) (deltas : List Size) :
    (deltas.foldl stringIncrement string).Sound mem := by
  induction deltas generalizing string with
  | nil => exact h
  | cons delta deltas ih => exact ih (stringIncrement_sound h delta)

/-- When the string functions stay in the ranges of their pointers: a pointer past its range, a
length around the end of the address space, a destination below its range and a second operand
without a terminating zero are what goes wrong. -/
theorem string_functions_iff (mem : Memory) (ptr ptr1 ptr2 dstPtr srcPtr : DataPtr)
    (length size : Size) (allocateBuffer : (size : Size) → Option (Buffer size)) :
    (((String.setPtr mem ptr length).InRange ∧
        ∃ string, (String.setPtr mem ptr length).result = some string ∧
          ∀ deltas : List Size, (deltas.foldl stringIncrement string).Sound mem) ↔
      ptr.NotPast ∧ ptr.Reaches length) ∧
    ((strLen mem ptr).InRange ↔ ptr.NotPast) ∧
    ((strCpy mem dstPtr srcPtr size).InRange ↔
      ∀ v, dstPtr.validator = some v →
        v.rangeBegin.toNat ≤ dstPtr.p.toNat ∧ srcPtr.NotPast) ∧
    ((strCat mem allocateBuffer ptr1 ptr2).InRange ↔
      ptr1.NotPast ∧ ptr2.NotPast ∧
        (allocateBuffer (BitVec.ofNat 64 (ptr1.content mem + (ptr2.content mem + 1))) = none ∨
          (ptr2.p = 0 ∨ ptr2.Terminated mem) ∧
            ptr1.content mem + ptr2.content mem + 1 < 2 ^ 64)) := by
  refine ⟨?_,strLen_inRange_iff,strCpy_inRange_iff size,strCat_inRange_iff allocateBuffer⟩
  rw [← setPtr_iff mem]
  refine and_congr_right fun _ => exists_congr fun string => and_congr_right fun _ => ?_
  exact ⟨fun h => h [],increments_sound⟩

def pastPtr : DataPtr := ⟨40,some ⟨16,32,false,by decide,by decide⟩⟩

/-- Past its range, a pointer is followed until the first zero byte. -/
theorem strLen_reads_past :
    ∃ mem : Memory, (strLen mem pastPtr).accesses = [⟨pastPtr.validator,40,1,false⟩] ∧
      ¬(strLen mem pastPtr).InRange := by
  have hscan : memchrSize (fun _ => 0) pastPtr.p ((32 : Size) - 40).toNat = 1 := by
    rw [memchrSize,memchr_of_zero (by decide) rfl]
  have haccesses : (strLen (fun _ => 0) pastPtr).accesses = [⟨pastPtr.validator,40,1,false⟩] := by
    rw [← hscan]
    rfl
  refine ⟨fun _ => 0,haccesses,fun h => ?_⟩
  have hpast := strLen_inRange_iff.1 h _ rfl (by decide)
  exact absurd hpast (by decide)

end Jancy.Api.StringPtr
