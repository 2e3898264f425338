import Jancy.Std.ArrayRun
import Jancy.Std.StringBuilder

/-! String builders follow the list model, and their strings are always terminated. -/
namespace Jancy.Std.StringBuilder

open Blocks
open Storage (WF Reserved CanReserve)

variable {α : Type} {getAllocSize : ℕ → ℕ} {hasMemory : Bool} {zero : α} {isWhitespace : α → Bool}
  {s s' : Builder α} {src : Option Ptr} {length offset : ℕ} {memory : Memory α} {xs : List α}

theorem chars_size_pos (zero : α) : 0 < (chars zero).size := Nat.one_pos

/-- The buffer is well formed, and the string is terminated. -/
structure Inv (zero : α) (s : Builder α) : Prop where
  wf : WF (chars zero) s
  terminated : Terminated zero s

theorem reserve_eq (h : length + 1 < 2 ^ 64) (s : Builder α) :
    reserve getAllocSize hasMemory zero length s =
      Storage.reserve (chars zero) getAllocSize hasMemory (length + 1) s := by
  unfold reserve
  rw [Nat.mod_eq_of_lt h]
  rfl

theorem Inv.reserved (hs : Inv zero s) (h : Reserved (chars zero) s s' (length + 1)) :
    Inv zero s' := by
  refine ⟨h.wf,fun _ => ?_⟩
  rcases Nat.lt_or_ge s.maxCount (length + 1) with hlt | hle
  · have hroom := h.room
    have hcount := hs.wf.count_le
    have hlength := h.wf.length_eq
    have hlt' : s.count < s'.block.length := by omega
    refine ⟨by rw [h.count_eq]; omega,?_⟩
    rw [h.count_eq,List.getElem?_eq_getElem hlt']
    refine congrArg some ((h.fresh hlt).2 _ ?_)
    rw [List.drop_eq_getElem_cons hlt']
    exact List.mem_cons_self
  · obtain rfl := h.same hle
    exact hs.terminated (by omega)

theorem terminate_spec (hs : WF (chars zero) s) (hlt : length < s.maxCount) :
    ∃ s',terminate zero length s = some s' ∧ Inv zero s' ∧ s'.count = length ∧
      s'.content = s.block.take length := by
  have hlength := hs.length_eq
  have hfits : length + [zero].length ≤ s.block.length := by
    rw [List.length_singleton]
    omega
  have hl := length_splice hfits
  refine ⟨_,congrArg (Option.map _) (store_ptrAt hfits),
    ⟨hs.setBlock hl hlt.le,fun _ => ⟨hlt,?_⟩⟩,rfl,?_⟩
  · show (blockAt (setBlock s.memory s.ptr (splice s.block length [zero])) s.ptr)[length]? = some zero
    rw [blockAt_setBlock hs.owns hl,splice,
      List.getElem?_append_right (List.length_take_le ..)]
    have hzero : length - (s.block.take length).length = 0 := by
      rw [List.length_take]
      omega
    rw [hzero]
    rfl
  · exact (Storage.content_setBlock hs hl _).trans (take_splice (by omega))

theorem clear_spec (hs : Inv zero s) :
    ∃ s',clear zero s = some s' ∧ Inv zero s' ∧ s'.content = [] := by
  unfold clear
  split
  next hzero =>
    refine ⟨s,rfl,hs,List.length_eq_zero_iff.1 ?_⟩
    rw [hs.wf.content_length,hzero]
  next hpos =>
    have hcount := hs.wf.count_le
    obtain ⟨s',heq,hs',-,hcontent⟩ := terminate_spec hs.wf (by omega : 0 < s.maxCount)
    exact ⟨s',heq,hs',hcontent⟩

theorem shorten_spec (hs : Inv zero s) (hpos : s.count ≠ 0) (hle : length ≤ s.count) :
    ∃ s',terminate zero length s = some s' ∧ Inv zero s' ∧ s'.count = length ∧
      s'.content = s.content.take length := by
  have hcount := hs.wf.count_le
  obtain ⟨hlt,-⟩ := hs.terminated (by omega)
  obtain ⟨s',heq,hs',hlength,hcontent⟩ := terminate_spec hs.wf (hle.trans_lt hlt)
  refine ⟨s',heq,hs',hlength,?_⟩
  rw [hcontent,Storage.content,List.take_take,Nat.min_eq_left hle]

theorem remove_spec (hs : Inv zero s) (offset length : ℕ) :
    ∃ r s',remove zero offset length s = some (r,s') ∧ Inv zero s' ∧
      s'.content = s.content.take offset ++ s.content.drop (offset + length) := by
  unfold remove
  rw [← Storage.removed_content hs.wf]
  have hcount := hs.wf.count_le
  split
  next hle =>
    refine ⟨_,s,rfl,hs,?_⟩
    rw [Nat.min_eq_right hle,Nat.sub_self,Nat.min_zero]
    exact (List.take_append_drop ..).symm
  next hlt =>
    have hmin : min offset s.count = offset := by omega
    rw [hmin]
    simp only
    generalize hn : min length (s.count - offset) = n
    split
    next hzero =>
      refine ⟨_,s,rfl,hs,?_⟩
      rw [hzero]
      exact (List.take_append_drop ..).symm
    next hpos =>
      obtain ⟨l,hmoved,hl,hcontent,-⟩ :=
        Storage.removed_eq hs.wf (chars_size_pos zero) (by omega : offset + n ≤ s.count)
      have hs₁ := hs.wf.setBlock hl hs.wf.count_le
      obtain ⟨s',heq,hs',-,hcontent'⟩ := terminate_spec hs₁ (by omega : s.count - n < s.maxCount)
      rw [hmoved]
      refine ⟨_,s',congrArg (Option.map _) heq,hs',?_⟩
      rw [hcontent',← hcontent]
      exact Storage.content_setBlock hs.wf hl _

theorem chop_spec (hs : Inv zero s) :
    ∃ r s',chop zero length s = some (r,s') ∧ Inv zero s' ∧
      s'.content = s.content.take (s.content.length - length) := by
  unfold chop
  rw [hs.wf.content_length]
  split
  next hle =>
    obtain ⟨s',heq,hs',hcontent⟩ := clear_spec hs
    refine ⟨0,s',congrArg (Option.map _) heq,hs',?_⟩
    rw [hcontent,Nat.sub_eq_zero_of_le hle]
    rfl
  next hlt =>
    obtain ⟨s',heq,hs',-,hcontent⟩ :=
      shorten_spec hs (by omega) (Nat.sub_le s.count length)
    exact ⟨_,s',congrArg (Option.map _) heq,hs',hcontent⟩

theorem trimLeft_spec (isWhitespace : α → Bool) (hs : Inv zero s) :
    ∃ r s',trimLeft zero isWhitespace s = some (r,s') ∧ Inv zero s' ∧
      s'.content = s.content.dropWhile isWhitespace := by
  unfold trimLeft
  split
  next hnone =>
    obtain ⟨s',heq,hs',hcontent⟩ := clear_spec hs
    refine ⟨0,s',congrArg (Option.map _) heq,hs',?_⟩
    rw [hcontent,eq_comm,List.dropWhile_eq_nil_iff]
    simpa using hnone
  next i hi =>
    obtain ⟨r,s',heq,hs',hcontent⟩ := remove_spec hs 0 i
    refine ⟨r,s',heq,hs',?_⟩
    rw [hcontent,List.dropWhile_eq_drop_findIdx_not,(List.findIdx?_eq_some_iff_findIdx_eq.1 hi).2,
      List.take_zero,List.nil_append,Nat.zero_add]

theorem trimRight_spec (isWhitespace : α → Bool) (hs : Inv zero s) :
    ∃ r s',trimRight zero isWhitespace s = some (r,s') ∧ Inv zero s' ∧
      s'.content = s.content.rdropWhile isWhitespace := by
  unfold trimRight List.rdropWhile
  split
  next hnone =>
    obtain ⟨s',heq,hs',hcontent⟩ := clear_spec hs
    refine ⟨0,s',congrArg (Option.map _) heq,hs',?_⟩
    rw [hcontent,eq_comm,List.reverse_eq_nil_iff,List.dropWhile_eq_nil_iff]
    simpa using hnone
  next i hi =>
    obtain ⟨hlt,hidx⟩ := List.findIdx?_eq_some_iff_findIdx_eq.1 hi
    have hlength := hs.wf.content_length
    rw [List.length_reverse,hlength] at hlt
    obtain ⟨s',heq,hs',-,hcontent⟩ := shorten_spec hs (by omega) (Nat.sub_le s.count i)
    refine ⟨_,s',congrArg (Option.map _) heq,hs',?_⟩
    rw [hcontent,List.dropWhile_eq_drop_findIdx_not,hidx,List.drop_reverse,List.reverse_reverse,
      hlength]

theorem fill_chars (hwrapped : (chars zero).wrapped length = length) (dst : Option Ptr) :
    Storage.fill (chars zero) memory dst src length = memcpy memory dst src length := by
  unfold Storage.fill
  rw [hwrapped]
  rfl

theorem readable_iff (zero : α) :
    Storage.Readable (chars zero) s src length ↔ (load s.memory src length).isSome = true :=
  or_iff_right fun h => Bool.false_ne_true h.1

theorem copyImpl_spec (hs : Inv zero s) (hlt : length + 1 < 2 ^ 64)
    (hcan : hasMemory = true → CanReserve (chars zero) getAllocSize s (length + 1))
    (hread : (load s.memory src length).isSome = true)
    (halias : s.NotAliased (length + 1) 0 length src length) :
    (s.maxCount ≤ length ∧ hasMemory = false) ∧
        copyImpl getAllocSize hasMemory zero src length s = some (none,s) ∨
      ¬(s.maxCount ≤ length ∧ hasMemory = false) ∧
        ∃ s',copyImpl getAllocSize hasMemory zero src length s = some (some length,s') ∧
          Inv zero s' ∧ s'.content = source s src length := by
  have hread := (readable_iff zero).2 hread
  unfold copyImpl
  rw [reserve_eq hlt]
  rcases Storage.reserve_spec (chars_size_pos zero) hs.wf hcan with
    ⟨hfails,heq⟩ | ⟨hnot,s',heq,h⟩
  · exact Or.inl ⟨⟨Nat.le_of_lt_succ hfails.1,hfails.2⟩,by rw [heq]; rfl⟩
  refine Or.inr ⟨fun h => hnot ⟨Nat.lt_succ_of_le h.1,h.2⟩,?_⟩
  rw [heq]
  have hsource := h.sourceAt hread
  have hlength := (chars zero).length_of_sourceAt hsource
  have hroom := h.room
  have hblock := h.wf.length_eq
  have hapart := (h.apart hread halias).mono (Nat.zero_add length).le
  have hfits : 0 + length ≤ (blockAt s'.memory s'.ptr).length := by
    rw [← Storage.block]
    omega
  have hcopy := memcpy_ptrAt hsource hapart hfits
  have hl : (splice s'.block 0 (source s src length)).length = s'.block.length :=
    length_splice ((Nat.le_of_eq (congrArg (0 + ·) hlength)).trans hfits)
  have hs₁ := h.wf.setBlock hl h.wf.count_le
  obtain ⟨s₂,heq₂,hs₂,-,hcontent⟩ := terminate_spec hs₁ hroom
  refine ⟨s₂,?_,hs₂,?_⟩
  · simp only [Bool.not_true,Bool.false_eq_true,if_false,Option.bind_some]
    rw [hcopy]
    exact congrArg (Option.map _) heq₂
  · refine hcontent.trans ((Storage.content_setBlock h.wf hl _).trans ?_)
    have htake := take_splice_zero s'.block (Storage.source (chars zero) s src length)
    rwa [hlength] at htake

theorem insertImpl_spec (hs : Inv zero s) (hlt : s.count + length + 1 < 2 ^ 64)
    (hcan : hasMemory = true → CanReserve (chars zero) getAllocSize s (s.count + length + 1))
    (hread : (load s.memory src length).isSome = true)
    (halias : s.NotAliased (s.count + length + 1) (min offset s.count) (s.count + length)
      src length) :
    (s.maxCount ≤ s.count + length ∧ hasMemory = false) ∧
        insertImpl getAllocSize hasMemory zero offset src length s = some (none,s) ∨
      ¬(s.maxCount ≤ s.count + length ∧ hasMemory = false) ∧
        ∃ s',insertImpl getAllocSize hasMemory zero offset src length s =
            some (some (s.count + length),s') ∧ Inv zero s' ∧
          s'.content = s.content.take offset ++ source s src length ++ s.content.drop offset := by
  have hread := (readable_iff zero).2 hread
  unfold insertImpl
  simp only [Nat.mod_eq_of_lt (Nat.lt_of_succ_lt hlt)]
  rw [reserve_eq hlt]
  rcases Storage.reserve_spec (chars_size_pos zero) hs.wf hcan with
    ⟨hfails,heq⟩ | ⟨hnot,s',heq,h⟩
  · exact Or.inl ⟨⟨Nat.le_of_lt_succ hfails.1,hfails.2⟩,by rw [heq]; rfl⟩
  refine Or.inr ⟨fun h => hnot ⟨Nat.lt_succ_of_le h.1,h.2⟩,?_⟩
  have hcount := h.count_eq
  have hroom := h.room
  have hapart := h.apart hread halias
  rw [← hcount] at hroom hapart
  obtain ⟨l,hmemory,hl,hcontent,-⟩ := Storage.inserted_eq h.wf (chars_size_pos zero)
    (Nat.min_le_right offset s'.count) (Nat.le_of_succ_le hroom) (h.sourceAt hread) hapart
  rw [Storage.content_take_min h.wf,Storage.content_drop_min h.wf,h.content_eq] at hcontent
  have hwrapped := h.wf.wrapped_eq (chars_size_pos zero) (by omega : length ≤ s'.maxCount)
  simp only [fill_chars hwrapped] at hmemory
  have hs₁ := h.wf.setBlock hl h.wf.count_le
  obtain ⟨s₂,heq₂,hs₂,-,hcontent₂⟩ := terminate_spec hs₁ hroom
  rw [heq,← hcount]
  refine ⟨s₂,?_,hs₂,?_⟩
  · simp only [Bool.not_true,Bool.false_eq_true,if_false,Option.bind_some]
    rw [← Option.bind_assoc,hmemory]
    exact congrArg (Option.map _) heq₂
  · exact hcontent₂.trans ((Storage.content_setBlock h.wf hl _).trans hcontent)

theorem append_spec (hs : Inv zero s) (hlt : s.count + length + 1 < 2 ^ 64)
    (hcan : hasMemory = true → CanReserve (chars zero) getAllocSize s (s.count + length + 1))
    (hread : (load s.memory src length).isSome = true)
    (halias : s.NotAliased (s.count + length + 1) s.count (s.count + length) src length) :
    (s.maxCount ≤ s.count + length ∧ hasMemory = false) ∧
        insertImpl getAllocSize hasMemory zero (2 ^ 64 - 1) src length s = some (none,s) ∨
      ¬(s.maxCount ≤ s.count + length ∧ hasMemory = false) ∧
        ∃ s',insertImpl getAllocSize hasMemory zero (2 ^ 64 - 1) src length s =
            some (some (s.count + length),s') ∧ Inv zero s' ∧
          s'.content = s.content ++ source s src length := by
  have hle : s.count ≤ 2 ^ 64 - 1 := by omega
  have halias' : s.NotAliased (s.count + length + 1) (min (2 ^ 64 - 1) s.count) (s.count + length)
      src length := by
    rwa [Nat.min_eq_right hle]
  have hinsert := insertImpl_spec hs hlt hcan hread halias'
  have hlength := hs.wf.content_length
  rwa [List.take_of_length_le (by omega),List.drop_of_length_le (by omega),List.append_nil]
    at hinsert

theorem onStack_spec (hs : Inv zero s) (string : List α) :
    Inv zero (onStack string s) ∧ (onStack string s).content = s.content ∧
      load (onStack string s).memory (some ⟨s.memory.length,0⟩) string.length = some string ∧
      ∀ room index last,(onStack string s).NotAliased room index last
        (some ⟨s.memory.length,0⟩) string.length := by
  have hblock : (onStack string s).block = s.block := by
    show blockAt (s.memory ++ [string]) s.ptr = blockAt s.memory s.ptr
    have howns := hs.wf.owns
    cases hptr : s.ptr with
    | none => rfl
    | some b =>
      rw [hptr] at howns
      simp [blockAt,List.getElem?_append_left (howns b rfl)]
  have hlonger : (onStack string s).memory.length = s.memory.length + 1 := by simp [onStack]
  refine ⟨⟨⟨?_,?_,hs.wf.count_le,hs.wf.bytes_lt⟩,?_⟩,congrArg (List.take s.count) hblock,?_,?_⟩
  · intro i hi
    have := hs.wf.owns i hi
    omega
  · exact (congrArg List.length hblock).trans hs.wf.length_eq
  · intro hpos
    refine (hs.terminated hpos).imp_right fun hzero => ?_
    rw [hblock]
    exact hzero
  · simp only [load,onStack]
    split
    next hzero => rw [List.length_eq_zero_iff.1 hzero]
    next => simp
  · rintro room index last _ ⟨⟩ hptr
    exact absurd (hs.wf.owns _ hptr) (Nat.lt_irrefl _)

theorem follows_of_spec {β : Type} {op : BuilderOp α} {r : Option (β × Builder α)} {x y : β}
    (hrequested : requested s op = some length) {s₁ : Builder α} (hs₁ : Inv zero s₁)
    (hcontent₁ : s₁.content = s.content)
    (h : (s.maxCount ≤ length ∧ hasMemory = false) ∧ r = some (x,s₁) ∨
      ¬(s.maxCount ≤ length ∧ hasMemory = false) ∧
        ∃ s',r = some (y,s') ∧ Inv zero s' ∧ s'.content = model isWhitespace s op s.content) :
    ∃ s',r.map Prod.snd = some s' ∧ Follows zero isWhitespace s (.op op hasMemory) s' ∧
      Inv zero s' := by
  have hfails : Fails s op hasMemory ↔ s.maxCount ≤ length ∧ hasMemory = false := by
    unfold Fails
    rw [hrequested]
    simp
  rcases h with ⟨hyes,rfl⟩ | ⟨hnot,s',rfl,hs',hcontent⟩
  · exact ⟨s₁,rfl,⟨hs₁.terminated,fun _ => hcontent₁,fun h => absurd (hfails.2 hyes) h⟩,hs₁⟩
  · exact ⟨s',rfl,⟨hs'.terminated,fun h => absurd (hfails.1 h) hnot,fun _ => hcontent⟩,hs'⟩

theorem follows_of_content {op : BuilderOp α} (hrequested : requested s op = none)
    (hs' : Inv zero s') (hcontent : s'.content = model isWhitespace s op s.content) :
    Follows zero isWhitespace s (.op op hasMemory) s' ∧ Inv zero s' := by
  refine ⟨⟨hs'.terminated,fun h => ?_,fun _ => hcontent⟩,hs'⟩
  obtain ⟨⟨length,hlength,-⟩,-⟩ := h
  rw [hrequested] at hlength
  cases hlength

theorem follows_of_run {op : BuilderOp α} {β : Type} {r : Option (β × Builder α)}
    (hrequested : requested s op = none)
    (h : ∃ x s',r = some (x,s') ∧ Inv zero s' ∧
      s'.content = model isWhitespace s op s.content) :
    ∃ s',r.map Prod.snd = some s' ∧ Follows zero isWhitespace s (.op op hasMemory) s' ∧
      Inv zero s' := by
  obtain ⟨x,s',rfl,hs',hcontent⟩ := h
  exact ⟨s',rfl,follows_of_content hrequested hs' hcontent⟩

theorem follows_other (hs : Inv zero s)
    (h : s.memory.length ≤ memory.length ∧ blockAt memory s.ptr = s.block) :
    Follows zero isWhitespace s (.other memory) { s with memory } ∧
      Inv zero { s with memory } := by
  obtain ⟨hcontent,hwf⟩ := Storage.follows_other hs.wf h
  have hterminated : Terminated zero { s with memory } := by
    intro hpos
    refine (hs.terminated hpos).imp_right fun hzero => ?_
    show (blockAt memory s.ptr)[s.count]? = some zero
    rw [h.2]
    exact hzero
  exact ⟨⟨hterminated,hcontent⟩,hwf,hterminated⟩

theorem step_spec (hs : Inv zero s) {label : BuilderLabel α}
    (hok : StepOk getAllocSize zero s label) :
    ∃ s',step getAllocSize zero isWhitespace s label = some s' ∧
      Follows zero isWhitespace s label s' ∧ Inv zero s' := by
  cases label with
  | other memory => exact ⟨_,rfl,follows_other hs hok⟩
  | op op hasMemory =>
    obtain ⟨hrequested,hok⟩ := hok
    cases op with
    | clear =>
      obtain ⟨s',heq,hs',hcontent⟩ := clear_spec hs
      exact ⟨s',heq,follows_of_content rfl hs' hcontent⟩
    | reserve length =>
      obtain ⟨hlt,hcan⟩ := hrequested length rfl
      refine follows_of_spec (x := false) (y := true) rfl hs rfl ?_
      rw [reserve_eq hlt]
      rcases Storage.reserve_spec (chars_size_pos zero) hs.wf hcan with
        ⟨hfails,heq⟩ | ⟨hnot,s',heq,h⟩
      · exact Or.inl ⟨⟨Nat.le_of_lt_succ hfails.1,hfails.2⟩,heq⟩
      · exact Or.inr ⟨fun h => hnot ⟨Nat.lt_succ_of_le h.1,h.2⟩,s',heq,hs.reserved h,
          h.content_eq⟩
    | copy src length =>
      obtain ⟨hlt,hcan⟩ := hrequested length rfl
      exact follows_of_spec rfl hs rfl (copyImpl_spec hs hlt hcan hok.1 hok.2)
    | copyConverted string =>
      obtain ⟨hlt,hcan⟩ := hrequested string.length rfl
      obtain ⟨hs₁,hcontent₁,hload,halias⟩ := onStack_spec hs string
      have hcopy := copyImpl_spec hs₁ hlt hcan (Option.isSome_of_eq_some hload) (halias _ _ _)
      rw [source,hload] at hcopy
      exact follows_of_spec rfl hs₁ hcontent₁ hcopy
    | insert offset src length =>
      obtain ⟨hlt,hcan⟩ := hrequested _ rfl
      exact follows_of_spec rfl hs rfl (insertImpl_spec hs hlt hcan hok.1 hok.2)
    | insertConverted offset string =>
      obtain ⟨hlt,hcan⟩ := hrequested _ rfl
      obtain ⟨hs₁,hcontent₁,hload,halias⟩ := onStack_spec hs string
      have hinsert := insertImpl_spec hs₁ hlt hcan (Option.isSome_of_eq_some hload)
        (halias _ (min offset s.count) _)
      rw [source,hload,hcontent₁] at hinsert
      exact follows_of_spec rfl hs₁ hcontent₁ hinsert
    | append src length =>
      obtain ⟨hlt,hcan⟩ := hrequested _ rfl
      exact follows_of_spec rfl hs rfl (append_spec hs hlt hcan hok.1 hok.2)
    | appendConverted string =>
      obtain ⟨hlt,hcan⟩ := hrequested _ rfl
      obtain ⟨hs₁,hcontent₁,hload,halias⟩ := onStack_spec hs string
      have happend := append_spec hs₁ hlt hcan (Option.isSome_of_eq_some hload) (halias _ _ _)
      rw [source,hload,hcontent₁] at happend
      exact follows_of_spec rfl hs₁ hcontent₁ happend
    | remove offset length => exact follows_of_run rfl (remove_spec hs offset length)
    | chop length => exact follows_of_run rfl (chop_spec hs)
    | trimLeft => exact follows_of_run rfl (trimLeft_spec isWhitespace hs)
    | trimRight => exact follows_of_run rfl (trimRight_spec isWhitespace hs)
    | trim =>
      refine follows_of_run rfl ?_
      obtain ⟨_,s₁,heq₁,hs₁,hcontent₁⟩ := trimLeft_spec isWhitespace hs
      obtain ⟨r,s',heq,hs',hcontent⟩ := trimRight_spec isWhitespace hs₁
      refine ⟨r,s',?_,hs',by rw [hcontent,hcontent₁]; rfl⟩
      rw [trim,heq₁]
      exact heq

end Jancy.Std.StringBuilder

namespace Jancy.Std

open Blocks

variable {α : Type}

/-- A container without a block, in any memory. -/
def start (memory : Memory α) : Storage α := ⟨memory,none,0,0⟩

theorem start_wf (e : Elements α) (memory : Memory α) : Storage.WF e (start memory) :=
  ⟨nofun,rfl,le_rfl,by show sizeofDataBox + e.size * 0 < 2 ^ 64; simp [sizeofDataBox]⟩

/-- In every run whose steps meet the condition, arrays, buffers and string builders follow the
list model. -/
theorem containers_follow (getAllocSize : ℕ → ℕ) (zero : α) (isWhitespace : α → Bool)
    (memory : Memory α) :
    (∀ labels,Run.Before (Array.step getAllocSize zero)
        (Storage.StepOk (Array.variants zero) getAllocSize) (start memory) labels →
      Run.Through (Array.step getAllocSize zero) (Storage.Follows (Array.variants zero))
        (start memory) labels) ∧
    (∀ labels,Run.Before (Buffer.step getAllocSize zero)
        (Storage.StepOk (Buffer.chars zero) getAllocSize) (start memory) labels →
      Run.Through (Buffer.step getAllocSize zero) (Storage.Follows (Buffer.chars zero))
        (start memory) labels) ∧
    ∀ labels,Run.Before (StringBuilder.step getAllocSize zero isWhitespace)
        (StringBuilder.StepOk getAllocSize zero) (start memory) labels →
      Run.Through (StringBuilder.step getAllocSize zero isWhitespace)
        (StringBuilder.Follows zero isWhitespace) (start memory) labels := by
  refine ⟨fun labels => ?_,fun labels => ?_,fun labels => ?_⟩
  · exact Run.through_of_before (fun _ _ hs hok => Array.step_spec hs hok) (start_wf _ _)
  · exact Run.through_of_before (fun _ _ hs hok => Buffer.step_spec hs hok) (start_wf _ _)
  · exact Run.through_of_before (fun _ _ hs hok => StringBuilder.step_spec hs hok)
      ⟨start_wf _ _,fun h => absurd rfl h⟩

theorem containers_follow_copy :
    Run.Through (Array.step (max 16) 0) (Storage.Follows (Array.variants 0)) (start [[7,8]])
        [.op (.copy (some ⟨0,0⟩) 2) true,.op (.insert 0 (some ⟨1,0⟩) 2) true] ∧
      Run.Through (Buffer.step (max 16) 0) (Storage.Follows (Buffer.chars 0)) (start [[7,8]])
        [.op (.setCount 2) true,.op (.append none 3) true] ∧
      Run.Through (StringBuilder.step (max 16) 0 (· == 32))
        (StringBuilder.Follows 0 (· == 32)) (start [[7,8]])
        [.op (.copy (some ⟨0,0⟩) 2) true,.op (.chop 1) true] := by
  obtain ⟨harray,hbuffer,hbuilder⟩ := containers_follow (max 16) 0 (· == 32) [[7,8]]
  have hcan : ∀ (e : Elements ℕ) (s : Storage ℕ) (count : ℕ),e.size ≤ 64 → count ≤ 16 →
      Storage.CanReserve e (max 16) s count := by
    intro e s count hsize hcount _
    refine ⟨le_max_right ..,?_⟩
    rw [max_eq_left hcount,sizeofDataBox]
    omega
  refine ⟨harray _ ⟨⟨fun _ => ?_,?_,?_⟩,⟨fun _ => ?_,?_,?_,?_⟩,trivial⟩,
    hbuffer _ ⟨⟨fun _ => ?_,?_⟩,⟨fun _ => ?_,?_,?_,?_⟩,trivial⟩,
    hbuilder _ ⟨⟨?_,?_,?_⟩,⟨?_,trivial⟩,trivial⟩⟩
  · exact hcan _ _ _ (by decide) (by decide)
  · exact Or.inr rfl
  · nofun
  · exact hcan _ _ _ (by decide) (by decide)
  · decide
  · exact Or.inr rfl
  · rintro _ ⟨⟩ -
    decide
  · exact hcan _ _ _ (by decide) (by decide)
  · exact fun h => absurd h (by decide)
  · exact hcan _ _ _ (by decide) (by decide)
  · decide
  · exact Or.inl ⟨rfl,rfl⟩
  · nofun
  · rintro length ⟨⟩
    exact ⟨by decide,fun _ => hcan _ _ _ (by decide) (by decide)⟩
  · rfl
  · nofun
  · nofun

/-- The source is moved before it is read, and what a copy leaves behind comes into sight. -/
theorem not_always_followed :
    ¬Run.Through (Array.step (max 16) 0) (Storage.Follows (Array.variants 0)) (start [[1,2,3]])
        [.op (.copy (some ⟨0,0⟩) 3) true,.op (.insert 0 (some ⟨1,2⟩) 1) true] ∧
      ¬Run.Through (Array.step (max 16) 0) (Storage.Follows (Array.variants 0)) (start [[1,2,3]])
        [.op (.copy (some ⟨0,0⟩) 3) true,.op (.copy (some ⟨0,0⟩) 1) true,
          .op (.setCount 3) true] := by
  constructor
  · rintro ⟨s₁,h₁,-,s₂,h₂,hfollows,-⟩
    obtain rfl := Option.some.inj h₁
    obtain rfl := Option.some.inj h₂
    have hcontent := hfollows.2 (by rintro ⟨h,-⟩; revert h; decide)
    revert hcontent
    decide
  · rintro ⟨s₁,h₁,-,s₂,h₂,-,s₃,h₃,hfollows,-⟩
    obtain rfl := Option.some.inj h₁
    obtain rfl := Option.some.inj h₂
    obtain rfl := Option.some.inj h₃
    have hcontent := hfollows.2 (by rintro ⟨h,-⟩; revert h; decide)
    revert hcontent
    decide

end Jancy.Std
