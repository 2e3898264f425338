import Jancy.Stdt.Array
import Mathlib.Algebra.Order.Group.Nat

/-! Arrays of the `stdt` library follow the list model in every run whose steps meet its conditions. -/
namespace Jancy.Stdt.Array

open Blocks
open Jancy.Std (Elements Storage)

variable {α : Type} {e : Elements α} {getAllocSize : ℕ → ℕ} {hasMemory : Bool}
  {s t u : Storage α} {src : Option Ptr} {count index : ℕ} {xs : List α} {value : α}

/-- The other blocks stay, and a block that was not there before is new. -/
structure Keeps (s t : Storage α) : Prop where
  length : s.memory.length ≤ t.memory.length
  other : ∀ b < s.memory.length, s.ptr ≠ some b → t.memory[b]? = s.memory[b]?
  ptr : ∀ b, t.ptr = some b → s.ptr = some b ∨ s.memory.length ≤ b

theorem Keeps.refl (s : Storage α) : Keeps s s := ⟨le_rfl,fun _ _ _ => rfl,fun _ => Or.inl⟩

theorem Keeps.trans (h : Keeps s t) (h' : Keeps t u) : Keeps s u where
  length := h.length.trans h'.length
  other b hlt hne := by
    have hne' : t.ptr ≠ some b := fun heq =>
      (h.ptr b heq).elim hne fun hle => absurd hle (Nat.not_le.2 hlt)
    rw [h'.other b (hlt.trans_le h.length) hne',h.other b hlt hne]
  ptr b heq := (h'.ptr b heq).elim (h.ptr b) fun hle => Or.inr (h.length.trans hle)

theorem Keeps.setBlock (s : Storage α) (l : List α) (count : ℕ) :
    Keeps s { s with memory := Blocks.setBlock s.memory s.ptr l,count } where
  length := (length_setBlock l).ge
  other b hlt hne := by
    cases hptr : s.ptr with
    | none => rfl
    | some p =>
      have hpb : p ≠ b := fun heq => hne (hptr.trans (congrArg some heq))
      simp [Blocks.setBlock,List.getElem?_set_ne hpb]
  ptr _ := Or.inl

theorem Keeps.of_reserved (h : Storage.Reserved e s t count) : Keeps s t := by
  obtain ⟨blocks,hgrown⟩ := h.grown
  refine ⟨by simp [hgrown],fun b hlt _ => ?_,fun b heq => ?_⟩
  · rw [hgrown,List.getElem?_append_left hlt]
  · rcases Nat.lt_or_ge s.maxCount count with hlt | hle
    · have hfresh := (h.fresh hlt).1
      exact Or.inr (Option.some.inj (hfresh.symm.trans heq)).le
    · obtain rfl := h.same hle
      exact Or.inl heq

variable {l : List α}

theorem ArrayOk.setBlock (hs : ArrayOk e s) (hl : l.length = s.block.length)
    (hcount : count ≤ s.maxCount) (hzeros : ∀ x ∈ l.drop count, x = e.zero) :
    ArrayOk e { s with memory := Blocks.setBlock s.memory s.ptr l,count } where
  toWF := hs.toWF.setBlock hl hcount
  zeros := by
    show ∀ x ∈ (blockAt (Blocks.setBlock s.memory s.ptr l) s.ptr).drop count, x = e.zero
    rwa [blockAt_setBlock hs.owns hl]

theorem ArrayOk.resize (hs : ArrayOk e s) (hle : s.count ≤ count) (hroom : count ≤ s.maxCount) :
    ArrayOk e { s with count } where
  toWF := hs.toWF.resize hroom
  zeros x hx := by
    obtain ⟨more,rfl⟩ := Nat.exists_eq_add_of_le hle
    have hx : x ∈ s.block.drop (s.count + more) := hx
    rw [← List.drop_drop] at hx
    exact hs.zeros x (List.mem_of_mem_drop hx)

theorem ArrayOk.of_reserved (hs : ArrayOk e s) (h : Storage.Reserved e s t count) :
    ArrayOk e t where
  toWF := h.wf
  zeros := by
    rw [h.count_eq]
    rcases Nat.lt_or_ge s.maxCount count with hlt | hle
    · exact (h.fresh hlt).2
    · obtain rfl := h.same hle
      exact hs.zeros

theorem ArrayOk.vacate (hs : ArrayOk e s) (hsize : 0 < e.size) (hle : count ≤ s.count) :
    ∃ l, memset s.memory (ptrAt s.ptr count) e.zero (e.wrapped (s.count - count)) =
        some (Blocks.setBlock s.memory s.ptr (splice s.block count l)) ∧
      l.length = s.count - count ∧
      (splice s.block count l).length = s.block.length ∧
      ArrayOk e { s with memory := Blocks.setBlock s.memory s.ptr (splice s.block count l),count } ∧
      (splice s.block count l).take count = s.content.take count := by
  have hlength := hs.length_eq
  have hcount := hs.count_le
  have hfits : count + (List.replicate (s.count - count) e.zero).length ≤ s.block.length := by
    rw [List.length_replicate]
    omega
  have hl := length_splice hfits
  refine ⟨List.replicate (s.count - count) e.zero,?_,List.length_replicate,hl,
    hs.setBlock hl (by omega) (Storage.zeros_splice (by omega) ?_),?_⟩
  · rw [hs.wrapped_eq hsize (by omega)]
    exact store_ptrAt hfits
  · rw [show count + (s.count - count) = s.count by omega]
    exact hs.zeros
  · rw [take_splice (by omega),Storage.content,List.take_take,Nat.min_eq_left hle]

theorem take_splice_of_le (hindex : index ≤ l.length) (h : index + xs.length ≤ count) :
    (splice l index xs).take count = splice (l.take count) index xs := by
  have hfront : (l.take index).length = index := List.length_take_of_le hindex
  have htake : (l.take index).take count = l.take index := List.take_of_length_le (by omega)
  have hxs : xs.take (count - index) = xs := List.take_of_length_le (by omega)
  rw [splice,splice,List.take_take,Nat.min_eq_left (by omega),List.drop_take,List.take_append,
    List.take_append,hfront,htake,hxs,Nat.sub_sub]

theorem ArrayOk.overwrite (hs : ArrayOk e s) (index : ℕ) (xs : List α) (hle : index + xs.length ≤ s.count) :
    (splice s.block index xs).length = s.block.length ∧
      ArrayOk e
        { s with memory := Blocks.setBlock s.memory s.ptr (splice s.block index xs) } ∧
      Storage.content
          { s with memory := Blocks.setBlock s.memory s.ptr (splice s.block index xs) } =
        splice s.content index xs := by
  have hlength := hs.length_eq
  have hcount := hs.count_le
  have hl : (splice s.block index xs).length = s.block.length := length_splice (by omega)
  refine ⟨hl,hs.setBlock hl hcount ?_,?_⟩
  · rw [window_splice_after hle (by omega)]
    exact hs.zeros
  · rw [Storage.content_setBlock hs.toWF hl,take_splice_of_le (by omega) hle]
    rfl

theorem ArrayOk.assign (hs : ArrayOk e s) (index : ℕ) (value : α) (hlt : index < s.count) :
    ∃ t, Array.assign index value s = (true,t) ∧ ArrayOk e t ∧ Keeps s t ∧
      t.count = s.count ∧ t.content = splice s.content index [value] := by
  have hlength := hs.length_eq
  have hcount := hs.count_le
  obtain ⟨-,hok,hcontent⟩ := hs.overwrite index [value] hlt
  have hstore : store s.memory (ptrAt s.ptr index) [value] =
      some (Blocks.setBlock s.memory s.ptr (splice s.block index [value])) :=
    store_ptrAt (show index + 1 ≤ s.block.length by omega)
  refine ⟨_,?_,hok,Keeps.setBlock s _ s.count,rfl,hcontent⟩
  rw [Array.assign,hstore]

theorem splice_singleton (hlt : index < l.length) :
    splice l index [value] = l.set index value := by
  rw [List.set_eq_take_append_cons_drop,if_pos hlt]
  rfl

structure Resized (e : Elements α) (s t : Storage α) (count : ℕ) : Prop where
  ok : ArrayOk e t
  keeps : Keeps s t
  count_eq : t.count = count
  content_eq : t.content = s.content.take count ++ List.replicate (count - s.content.length) e.zero
  load : ∀ {src : Option Ptr} {n : ℕ} {xs : List α}, load s.memory src n = some xs →
    (∀ q ∈ src, s.ptr = some q.block → count ≤ s.maxCount → n ≠ 0 →
      q.offset + n ≤ count ∨ s.count ≤ q.offset) → load t.memory src n = some xs
  fresh : s.maxCount < count → ∀ b, t.ptr = some b → s.memory.length ≤ b
  same : count ≤ s.maxCount → t.ptr = s.ptr

theorem Storage.exposes_of_zeros (hs : ArrayOk e s) : Storage.Exposes e s count := by
  intro _ x hx
  rw [List.drop_take] at hx
  exact hs.zeros x (List.mem_of_mem_take hx)

theorem setCount_spec (hsize : 0 < e.size) (hs : ArrayOk e s)
    (hcan : hasMemory = true → Storage.CanReserve e (allocCount e getAllocSize) s count) :
    (s.maxCount < count ∧ hasMemory = false) ∧
        setCount e getAllocSize hasMemory count s = some (false,s) ∨
      ¬(s.maxCount < count ∧ hasMemory = false) ∧
        ∃ t, setCount e getAllocSize hasMemory count s = some (true,t) ∧ Resized e s t count := by
  have hcount := hs.count_le
  have hcontent := hs.toWF.content_length
  unfold setCount
  rcases Nat.lt_trichotomy count s.count with hlt | rfl | hgt
  · refine Or.inr ⟨fun h => by omega,?_⟩
    rw [if_neg hlt.ne,if_pos hlt]
    obtain ⟨l,hclear,hlen,hl,hok,htake⟩ := hs.vacate hsize hlt.le
    refine ⟨_,congrArg (Option.map _) hclear,hok,Keeps.setBlock s _ count,rfl,?_,?_,
      fun h => by omega,fun _ => rfl⟩
    · refine (Storage.content_setBlock hs.toWF hl _).trans ?_
      rw [htake,show count - s.content.length = 0 by omega,List.replicate_zero,List.append_nil]
    · intro src n xs hload hapart
      have hlength := hs.length_eq
      refine (load_splice hs.owns (by rw [← Storage.block]; omega) fun q hq hptr hpos => ?_).trans
        hload
      have := hapart q hq hptr (by omega) hpos
      omega
  · refine Or.inr ⟨fun h => by omega,s,if_pos rfl,hs,.refl s,rfl,?_,
      fun hload _ => hload,fun h => by omega,fun _ => rfl⟩
    rw [hcontent,Nat.sub_self,List.replicate_zero,List.append_nil,
      List.take_of_length_le hcontent.le]
  · rw [if_neg hgt.ne',if_neg hgt.not_gt]
    split
    · next hroom =>
      rcases Storage.reserve_spec hsize hs.toWF hcan with ⟨hfails,heq⟩ | ⟨hnot,t,heq,h⟩
      · exact Or.inl ⟨hfails,by rw [reserve,heq]; rfl⟩
      · have hok := hs.of_reserved h
        have hle : t.count ≤ count := by
          rw [h.count_eq]
          exact hgt.le
        refine Or.inr ⟨hnot,_,congrArg (Option.map _) heq,hok.resize hle h.room,
          ⟨(Keeps.of_reserved h).length,(Keeps.of_reserved h).other,(Keeps.of_reserved h).ptr⟩,rfl,
          h.resize_content (Storage.exposes_of_zeros hs),?_,?_,fun h => by omega⟩
        · intro src n xs hload _
          obtain ⟨blocks,hgrown⟩ := h.grown
          show Blocks.load t.memory src n = some xs
          rw [hgrown]
          exact load_append hload _
        · intro hlt b hb
          have hfresh := (h.fresh hlt).1
          exact (Option.some.inj (hfresh.symm.trans hb)).le
    · next hroom =>
      have hroom : count ≤ s.maxCount := Nat.le_of_not_lt hroom
      refine Or.inr ⟨fun h => Nat.not_lt.2 hroom h.1,_,rfl,hs.resize hgt.le hroom,
        ⟨le_rfl,fun _ _ _ => rfl,fun _ => Or.inl⟩,rfl,
        Storage.resize_content hs.toWF hroom (Storage.exposes_of_zeros hs hroom),
        fun hload _ => hload,fun h => by omega,fun _ => rfl⟩

theorem Resized.memcpy {n last : ℕ} (h : Resized e s t count) (index : ℕ) (hsize : 0 < e.size)
    (hload : Blocks.load s.memory src n = some xs) (hle : index + n ≤ count)
    (hlast : s.count ≤ last) (hlast' : index + n ≤ last)
    (halias : s.NotAliased count index last src n) :
    ∃ memory, Blocks.memcpy t.memory (ptrAt t.ptr index) src (e.wrapped n) = some memory ∧
      ArrayOk e { t with memory } ∧ Keeps s { t with memory } ∧
      Storage.content { t with memory } = splice t.content index xs := by
  have hok := h.ok
  have hlength := hok.length_eq
  have hcount := hok.count_le
  have hn := length_of_load hload
  rw [h.count_eq] at hcount
  have hload' := h.load hload fun q hq hptr hroom hpos => by
    have := halias q hq hptr hroom hpos
    omega
  have hapart : Apart t.ptr index (index + n) src n := by
    intro q hq hptr hpos
    rcases Nat.lt_or_ge s.maxCount count with hlt | hge
    · obtain rfl : src = some q := hq
      have hold := block_lt_of_load hload hpos
      have := h.fresh hlt _ hptr
      omega
    · rw [h.same hge] at hptr
      have := halias q hq hptr hge hpos
      omega
  obtain ⟨-,hok',hcontent⟩ := hok.overwrite index xs (by
    rw [hn,h.count_eq]
    exact hle)
  refine ⟨_,?_,hok',h.keeps.trans (Keeps.setBlock t _ t.count),hcontent⟩
  rw [hok.wrapped_eq hsize (by omega)]
  exact memcpy_ptrAt hload' hapart (by rw [← Storage.block]; omega)

/-- The call throws and leaves the array, or does what it does to the list. -/
def Meets (e : Elements α) (s : Storage α) (call : Call α) (hasMemory : Bool)
    (result : Option (Bool × Storage α)) : Prop :=
  (call.Fails s hasMemory ∧ result = some (false,s)) ∨
    ¬call.Fails s hasMemory ∧ ∃ t, result = some (true,t) ∧ ArrayOk e t ∧ Keeps s t ∧
      t.content = call.model e s s.content

theorem Call.fails_iff {call : Call α} (hset : ∀ index value, call ≠ .set index value) :
    call.Fails s hasMemory ↔ s.maxCount < call.requested s ∧ hasMemory = false :=
  or_iff_left fun ⟨index,value,heq,_⟩ => hset index value heq

theorem set_meets (hs : ArrayOk e s) :
    Meets e s (.set index value) hasMemory (some (set index value s)) := by
  have hlength := hs.toWF.content_length
  unfold set boundsCheck
  rcases Nat.lt_or_ge index s.count with hlt | hge
  · obtain ⟨t,heq,hok,hkeeps,-,hcontent⟩ := hs.assign index value hlt
    refine Or.inr ⟨?_,t,by simp [hlt,heq],hok,hkeeps,?_⟩
    · rintro (⟨hroom,-⟩ | ⟨_,_,⟨⟩,hle⟩)
      · exact absurd hroom (Nat.not_lt_zero _)
      · omega
    · rw [hcontent,splice_singleton (by omega)]
      rfl
  · exact Or.inl ⟨Or.inr ⟨index,value,rfl,hge⟩,by simp [Nat.not_lt.2 hge]⟩

theorem clear_meets (hsize : 0 < e.size) (hs : ArrayOk e s) :
    Meets e s .clear hasMemory ((clear e s).map (true,·)) := by
  obtain ⟨l,hclear,-,hl,hok,htake⟩ := hs.vacate hsize (Nat.zero_le s.count)
  rw [Nat.sub_zero] at hclear
  refine Or.inr ⟨?_,_,by rw [clear,hclear]; rfl,hok,Keeps.setBlock s _ 0,?_⟩
  · rw [Call.fails_iff nofun]
    exact fun h => absurd h.1 (Nat.not_lt_zero _)
  · exact (Storage.content_setBlock hs.toWF hl 0).trans htake

theorem setCount_meets (hsize : 0 < e.size) (hs : ArrayOk e s)
    (hcan : hasMemory = true → Storage.CanReserve e (allocCount e getAllocSize) s count) :
    Meets e s (.setCount count) hasMemory (setCount e getAllocSize hasMemory count s) := by
  unfold Meets
  rw [Call.fails_iff nofun]
  exact (setCount_spec hsize hs hcan).imp_right fun ⟨hnot,t,heq,h⟩ =>
    ⟨hnot,t,heq,h.ok,h.keeps,h.content_eq⟩

theorem reserve_meets (hsize : 0 < e.size) (hs : ArrayOk e s)
    (hcan : hasMemory = true → Storage.CanReserve e (allocCount e getAllocSize) s count) :
    Meets e s (.reserve count) hasMemory (reserve e getAllocSize hasMemory count s) := by
  unfold Meets
  rw [Call.fails_iff nofun]
  exact (Storage.reserve_spec hsize hs.toWF hcan).imp_right fun ⟨hnot,t,heq,h⟩ =>
    ⟨hnot,t,heq,hs.of_reserved h,Keeps.of_reserved h,h.content_eq⟩

theorem load_of_readable (hnull : e.acceptsNull = false) (hread : Storage.Readable e s src count) :
    load s.memory src count = some (Storage.source e s src count) := by
  have hsource := Storage.sourceAt_of_readable hread
  simpa [Elements.sourceAt,hnull] using hsource

theorem splice_all (h : l.length = xs.length) : splice l 0 xs = xs := by
  have hlength : (splice l 0 xs).length = l.length := length_splice (by omega)
  have htake := take_splice_zero l xs
  rwa [List.take_of_length_le (by omega)] at htake

theorem splice_append {l ys : List α} (h : ys.length = xs.length) :
    splice (l ++ ys) l.length xs = l ++ xs := by
  rw [splice,List.take_left,List.drop_of_length_le (by simp [h]),List.append_nil]

theorem copy_meets (hsize : 0 < e.size) (hnull : e.acceptsNull = false) (hs : ArrayOk e s)
    (hcan : hasMemory = true → Storage.CanReserve e (allocCount e getAllocSize) s count)
    (hread : Storage.Readable e s src count)
    (halias : s.NotAliased count 0 (max count s.count) src count) :
    Meets e s (.copy src count) hasMemory
      ((copy e getAllocSize hasMemory src count s).map fun (result,s) => (result.isSome,s)) := by
  unfold Meets
  rw [Call.fails_iff nofun]
  rcases setCount_spec hsize hs hcan with ⟨hfails,heq⟩ | ⟨hnot,t,heq,h⟩
  · exact Or.inl ⟨hfails,by rw [copy,heq]; rfl⟩
  · have hload := load_of_readable hnull hread
    obtain ⟨memory,hcopy,hok,hkeeps,hcontent⟩ :=
      h.memcpy 0 hsize hload (by omega) (by omega) (by omega) halias
    refine Or.inr ⟨hnot,_,by rw [copy,heq,Option.bind_some]; simp [hcopy],hok,hkeeps,?_⟩
    have hlength := h.ok.toWF.content_length
    rw [hcontent,splice_all (by rw [hlength,h.count_eq,length_of_load hload])]
    rfl

theorem append_meets (hsize : 0 < e.size) (hnull : e.acceptsNull = false) (hs : ArrayOk e s)
    (hsum : s.count + count < 2 ^ 64)
    (hcan : hasMemory = true →
      Storage.CanReserve e (allocCount e getAllocSize) s (s.count + count))
    (hread : Storage.Readable e s src count)
    (halias : s.NotAliased (s.count + count) s.count (s.count + count) src count) :
    Meets e s (.append src count) hasMemory
      ((append e getAllocSize hasMemory src count s).map fun (result,s) => (result.isSome,s)) := by
  unfold Meets append
  rw [Call.fails_iff nofun,Nat.mod_eq_of_lt hsum]
  rcases setCount_spec hsize hs hcan with ⟨hfails,heq⟩ | ⟨hnot,t,heq,h⟩
  · exact Or.inl ⟨hfails,by rw [heq]; rfl⟩
  · have hload := load_of_readable hnull hread
    obtain ⟨memory,hcopy,hok,hkeeps,hcontent⟩ :=
      h.memcpy s.count hsize hload (by omega) (by omega) (by omega) halias
    refine Or.inr ⟨hnot,_,by rw [heq,Option.bind_some]; simp [hcopy],hok,hkeeps,?_⟩
    have hlength := hs.toWF.content_length
    rw [hcontent,h.content_eq,List.take_of_length_le (by omega),← hlength,
      splice_append (by rw [List.length_replicate,length_of_load hload]; omega)]
    rfl

theorem copyValue_meets (hsize : 0 < e.size) (hs : ArrayOk e s)
    (hcan : hasMemory = true → Storage.CanReserve e (allocCount e getAllocSize) s 1) :
    Meets e s (.copyValue value) hasMemory
      ((copyValue e getAllocSize hasMemory value s).map fun (result,s) => (result.isSome,s)) := by
  unfold Meets
  rw [Call.fails_iff nofun]
  rcases setCount_spec hsize hs hcan with ⟨hfails,heq⟩ | ⟨hnot,t,heq,h⟩
  · exact Or.inl ⟨hfails,by rw [copyValue,heq]; rfl⟩
  · obtain ⟨u,hassign,hok,hkeeps,-,hcontent⟩ := h.ok.assign 0 value
      (by rw [h.count_eq]; exact Nat.one_pos)
    refine Or.inr ⟨hnot,u,?_,hok,h.keeps.trans hkeeps,?_⟩
    · rw [copyValue,heq]
      simp [hassign,returns]
    · have hlength := h.ok.toWF.content_length
      rw [hcontent,splice_all (by rw [hlength,h.count_eq]; rfl)]
      rfl

theorem ArrayOk.count_lt (hs : ArrayOk e s) (hsize : 0 < e.size) : s.count + 1 < 2 ^ 64 := by
  have hbytes := hs.bytes_lt
  have hcount := hs.count_le
  have hmul : s.maxCount ≤ e.size * s.maxCount := Nat.le_mul_of_pos_left _ hsize
  unfold Jancy.Std.sizeofDataBox at hbytes
  omega

theorem appendValue_meets (hsize : 0 < e.size) (hs : ArrayOk e s)
    (hcan : hasMemory = true → Storage.CanReserve e (allocCount e getAllocSize) s (s.count + 1)) :
    Meets e s (.appendValue value) hasMemory
      ((appendValue e getAllocSize hasMemory value s).map fun (result,s) =>
        (result.isSome,s)) := by
  unfold Meets appendValue
  rw [Call.fails_iff nofun,Nat.mod_eq_of_lt (hs.count_lt hsize)]
  rcases setCount_spec hsize hs hcan with ⟨hfails,heq⟩ | ⟨hnot,t,heq,h⟩
  · exact Or.inl ⟨hfails,by rw [heq]; rfl⟩
  · obtain ⟨u,hassign,hok,hkeeps,-,hcontent⟩ := h.ok.assign s.count value
      (by rw [h.count_eq]; exact Nat.lt_succ_self _)
    refine Or.inr ⟨hnot,u,?_,hok,h.keeps.trans hkeeps,?_⟩
    · rw [heq]
      simp [hassign,returns]
    · have hlength := hs.toWF.content_length
      rw [hcontent,h.content_eq,List.take_of_length_le (by omega),← hlength,
        splice_append (by simp)]
      rfl

theorem insertSpace_spec (index : ℕ) (hsize : 0 < e.size) (hs : ArrayOk e s) (hsum : s.count + count < 2 ^ 64)
    (hcan : hasMemory = true →
      Storage.CanReserve e (allocCount e getAllocSize) s (s.count + count)) :
    (s.maxCount < s.count + count ∧ hasMemory = false) ∧
        insertSpace e getAllocSize hasMemory index count s = some (none,s) ∨
      ¬(s.maxCount < s.count + count ∧ hasMemory = false) ∧
        ∃ t, Storage.Reserved e s t (s.count + count) ∧
          insertSpace e getAllocSize hasMemory index count s = some (some (min index s.count),
            { t with
              memory := Blocks.setBlock t.memory t.ptr (splice t.block (min index s.count + count)
                ((t.block.drop (min index s.count)).take (s.count - min index s.count)))
              count := s.count + count }) := by
  unfold insertSpace
  simp only [Nat.mod_eq_of_lt hsum]
  rcases Storage.reserve_spec hsize hs.toWF hcan with ⟨hfails,heq⟩ | ⟨hnot,t,heq,h⟩
  · exact Or.inl ⟨hfails,by rw [reserve,heq]; rfl⟩
  · have hcount := h.count_eq
    have hroom : t.count + count ≤ t.maxCount := by
      rw [hcount]
      exact h.room
    have hmoved := Storage.moved_eq h.wf hsize (Nat.min_le_right index t.count) hroom
    refine Or.inr ⟨hnot,t,h,?_⟩
    rw [reserve,heq,Option.bind_some,if_neg (by simp),hmoved]
    simp only [hcount]
    rfl

theorem inserted_ok (hs : ArrayOk e s) (h : Storage.Reserved e s t (s.count + count))
    (hxs : xs.length = count) (hindex : index ≤ s.count)
    (hl : l = splice (splice t.block (index + count)
      ((t.block.drop index).take (s.count - index))) index xs) :
    ArrayOk e { t with memory := Blocks.setBlock t.memory t.ptr l,count := s.count + count } ∧
      Storage.content { t with memory := Blocks.setBlock t.memory t.ptr l,count := s.count + count } =
        s.content.take index ++ xs ++ s.content.drop index := by
  have hcount := h.count_eq
  have hindex : index ≤ t.count := by rwa [hcount]
  have hroom : t.count + count ≤ t.maxCount := by
    rw [hcount]
    exact h.room
  rw [← hcount] at hl
  obtain ⟨hlength,hcontent,hbehind⟩ := Storage.gap_filled h.wf hindex hroom hxs hl
  rw [hcount] at hcontent hbehind
  refine ⟨(hs.of_reserved h).setBlock hlength h.room ?_,?_⟩
  · rw [hbehind,← List.drop_drop,← hcount]
    exact fun x hx => (hs.of_reserved h).zeros x (List.mem_of_mem_drop hx)
  · rw [Storage.content_setBlock h.wf hlength,hcontent,h.content_eq]

theorem insert_meets (hsize : 0 < e.size) (hnull : e.acceptsNull = false) (hs : ArrayOk e s)
    (hsum : s.count + count < 2 ^ 64)
    (hcan : hasMemory = true →
      Storage.CanReserve e (allocCount e getAllocSize) s (s.count + count))
    (hread : Storage.Readable e s src count)
    (halias : s.NotAliased (s.count + count) (min index s.count) (s.count + count) src count) :
    Meets e s (.insert index src count) hasMemory
      ((insert e getAllocSize hasMemory index src count s).map fun (result,s) =>
        (result.isSome,s)) := by
  unfold Meets
  rw [Call.fails_iff nofun]
  rcases insertSpace_spec index hsize hs hsum hcan with ⟨hfails,heq⟩ | ⟨hnot,t,h,heq⟩
  · exact Or.inl ⟨hfails,by rw [insert,heq]; rfl⟩
  have hcount := h.count_eq
  have hlength := h.wf.length_eq
  have hroom := h.room
  have hmin : min index s.count ≤ s.count := Nat.min_le_right ..
  have hload := load_of_readable hnull hread
  have hn := length_of_load hload
  have hsource := h.sourceAt hread
  rw [Elements.sourceAt,hnull,Bool.false_and,if_neg Bool.false_ne_true] at hsource
  generalize hi : min index s.count = i at heq halias hmin
  generalize htail : (t.block.drop i).take (s.count - i) = tail at heq
  have htail_length : tail.length = s.count - i := by
    rw [← htail,List.length_take,List.length_drop]
    omega
  have hl₁ : (splice t.block (i + count) tail).length = t.block.length :=
    length_splice (by omega)
  have hblock := blockAt_setBlock h.wf.owns hl₁
  have hapart := h.apart hread halias
  -- what is at the source stays when the tail is moved
  have hsource₁ : load (Blocks.setBlock t.memory t.ptr (splice t.block (i + count) tail)) src count =
      some (Storage.source e s src count) := by
    refine (load_splice h.wf.owns (by rw [← Storage.block]; omega) fun q hq hptr hpos => ?_).trans
      hsource
    have := hapart q hq hptr hpos
    omega
  have hcopy := memcpy_ptrAt hsource₁ (hapart.mono (by omega)) (by rw [hblock]; omega)
  rw [hblock,setBlock_setBlock] at hcopy
  obtain ⟨hok,hcontent⟩ := inserted_ok hs h hn hmin rfl
  rw [htail] at hok hcontent
  refine Or.inr ⟨hnot,_,?_,hok,?_,?_⟩
  · rw [insert,heq,Option.bind_some,h.wf.wrapped_eq hsize (by omega)]
    simp only [hcopy,Option.map_some,Option.isSome_some]
  · exact (Keeps.of_reserved h).trans (Keeps.setBlock t _ _)
  · rw [hcontent,← hi,Storage.content_take_min hs.toWF,Storage.content_drop_min hs.toWF]
    rfl

theorem insertValue_meets (hsize : 0 < e.size) (hs : ArrayOk e s)
    (hcan : hasMemory = true → Storage.CanReserve e (allocCount e getAllocSize) s (s.count + 1)) :
    Meets e s (.insertValue index value) hasMemory
      ((insertValue e getAllocSize hasMemory index value s).map fun (result,s) =>
        (result.isSome,s)) := by
  unfold Meets
  rw [Call.fails_iff nofun]
  rcases insertSpace_spec index hsize hs (hs.count_lt hsize) hcan with
    ⟨hfails,heq⟩ | ⟨hnot,t,h,heq⟩
  · exact Or.inl ⟨hfails,by rw [insertValue,heq]; rfl⟩
  have hcount := h.count_eq
  have hlength := h.wf.length_eq
  have hroom := h.room
  have hmin : min index s.count ≤ s.count := Nat.min_le_right ..
  generalize hi : min index s.count = i at heq hmin
  generalize htail : (t.block.drop i).take (s.count - i) = tail at heq
  have htail_length : tail.length = s.count - i := by
    rw [← htail,List.length_take,List.length_drop]
    omega
  have hl₁ : (splice t.block (i + 1) tail).length = t.block.length := length_splice (by omega)
  have hblock := blockAt_setBlock h.wf.owns hl₁
  have hstore : store (Blocks.setBlock t.memory t.ptr (splice t.block (i + 1) tail)) (ptrAt t.ptr i)
      [value] = some (Blocks.setBlock t.memory t.ptr
        (splice (splice t.block (i + 1) tail) i [value])) := by
    refine (store_ptrAt (by rw [hblock,List.length_singleton]; omega)).trans ?_
    rw [hblock,setBlock_setBlock]
  obtain ⟨hok,hcontent⟩ := inserted_ok hs h (List.length_singleton (a := value)) hmin rfl
  rw [htail] at hok hcontent
  refine Or.inr ⟨hnot,_,?_,hok,?_,?_⟩
  · rw [insertValue,heq]
    simp only [Option.map_some,assign,hstore,returns,Option.isSome_some,if_true]
  · exact (Keeps.of_reserved h).trans (Keeps.setBlock t _ _)
  · rw [hcontent,← hi,Storage.content_take_min hs.toWF,Storage.content_drop_min hs.toWF]
    rfl

theorem remove_meets (hsize : 0 < e.size) (hclears : e.clearsRemoved = true) (hs : ArrayOk e s) :
    Meets e s (.remove index count) hasMemory
      ((remove e index count s).map fun (_,s) => (true,s)) := by
  obtain ⟨t,heq,hwf,hcontent,hzeros,hptr,l,hmemory⟩ :=
    @Storage.remove_spec α e s count index hsize hs.toWF
  refine Or.inr ⟨?_,t,by rw [remove,heq]; rfl,⟨hwf,hzeros hclears hs.zeros⟩,?_,hcontent⟩
  · rw [Call.fails_iff nofun]
    exact fun h => absurd h.1 (Nat.not_lt_zero _)
  · have hkeeps := Keeps.setBlock s l s.count
    refine ⟨?_,?_,?_⟩
    · rw [hmemory]
      exact hkeeps.length
    · rw [hmemory]
      exact hkeeps.other
    · rw [hptr]
      exact hkeeps.ptr

theorem detach_meets (s : Storage α) :
    Meets e s .detach hasMemory (some (true,detach s)) := by
  refine Or.inr ⟨?_,_,rfl,⟨⟨nofun,rfl,le_rfl,?_⟩,nofun⟩,⟨le_rfl,fun _ _ _ => rfl,nofun⟩,rfl⟩
  · rw [Call.fails_iff nofun]
    exact fun h => absurd h.1 (Nat.not_lt_zero _)
  · show Jancy.Std.sizeofDataBox + e.size * 0 < 2 ^ 64
    rw [Nat.mul_zero]
    decide

variable {r r' : State α} {i j : ℕ}

@[simp] theorem State.storage_put (r : State α) (i : ℕ) (t : Storage α) :
    (r.put i t).storage i = t := by
  simp [State.put,State.storage]

theorem State.storage_put_of_ne (r : State α) (t : Storage α) (hne : j ≠ i) :
    (r.put i t).storage j = { r.storage j with memory := t.memory } := by
  simp [State.put,State.storage,Function.update_of_ne hne]

theorem State.put_storage (r : State α) (i : ℕ) : r.put i (r.storage i) = r := by
  have harray : Function.update r.array i (r.array i) = r.array := Function.update_eq_self i _
  show (⟨r.memory,Function.update r.array i (r.array i)⟩ : State α) = r
  rw [harray]

theorem ArrayOk.of_memory (hs : ArrayOk e s) {memory : Memory α}
    (hlength : s.memory.length ≤ memory.length) (hblock : blockAt memory s.ptr = s.block) :
    ArrayOk e { s with memory } ∧ Storage.content { s with memory } = s.content := by
  have hfollows := Storage.follows_other hs.toWF ⟨hlength,hblock⟩
  refine ⟨⟨hfollows.2,?_⟩,hfollows.1⟩
  show ∀ x ∈ (blockAt memory s.ptr).drop s.count, x = e.zero
  rw [hblock]
  exact hs.zeros

theorem Sound.put (hr : Sound e r) {t : Storage α} (hok : ArrayOk e t)
    (hkeeps : Keeps (r.storage i) t) :
    Sound e (r.put i t) ∧ ∀ j, j ≠ i → ((r.put i t).storage j).content = (r.storage j).content := by
  have hother : ∀ j, j ≠ i → ArrayOk e ((r.put i t).storage j) ∧
      ((r.put i t).storage j).content = (r.storage j).content := by
    intro j hne
    rw [r.storage_put_of_ne t hne]
    refine (hr.array j).of_memory hkeeps.length ?_
    unfold Storage.block blockAt
    cases hptr : (r.storage j).ptr with
    | none => rfl
    | some b =>
      have hlt : b < r.memory.length := (hr.array j).owns b hptr
      have hsame := hkeeps.other b hlt fun heq => hne (hr.apart j i b hptr heq)
      exact congrArg (·.getD []) hsame
  have hptr : ∀ j b, ((r.put i t).array j).ptr = some b → j ≠ i →
      (r.array j).ptr = some b ∧ b < r.memory.length := by
    intro j b hb hne
    have hold : (r.array j).ptr = some b := by
      simpa [State.put,Function.update_of_ne hne] using hb
    exact ⟨hold,(hr.array j).owns b hold⟩
  have hnew : ∀ b, ((r.put i t).array i).ptr = some b →
      (r.array i).ptr = some b ∨ r.memory.length ≤ b := by
    intro b hb
    exact hkeeps.ptr b (by simpa [State.put] using hb)
  refine ⟨⟨fun j => ?_,fun j k b hj hk => ?_⟩,fun j hne => (hother j hne).2⟩
  · rcases eq_or_ne j i with rfl | hne
    · rwa [State.storage_put]
    · exact (hother j hne).1
  · rcases eq_or_ne j i with rfl | hji
    · rcases eq_or_ne k j with rfl | hkj
      · rfl
      · obtain ⟨hk,hlt⟩ := hptr k b hk hkj
        rcases hnew b hj with hj | hle
        · exact hr.apart _ _ b hj hk
        · omega
    · obtain ⟨hold,hlt⟩ := hptr j b hj hji
      rcases eq_or_ne k i with rfl | hki
      · rcases hnew b hk with hk | hle
        · exact hr.apart _ _ b hold hk
        · omega
      · exact hr.apart _ _ b hold (hptr k b hk hki).1

theorem call_meets {call : Call α} (hsize : 0 < e.size) (hnull : e.acceptsNull = false)
    (hclears : e.clearsRemoved = true) (hs : ArrayOk e (r.storage i))
    (hok : StepOk e getAllocSize r (.call i call hasMemory)) :
    Meets e (r.storage i) call hasMemory (call.run e getAllocSize hasMemory (r.storage i)) := by
  obtain ⟨hcan,hok⟩ := hok
  cases call with
  | set index value => exact set_meets hs
  | clear => exact clear_meets hsize hs
  | setCount count => exact setCount_meets hsize hs hcan
  | reserve count => exact reserve_meets hsize hs hcan
  | copy src count => exact copy_meets hsize hnull hs hcan hok.1 hok.2
  | copyValue value => exact copyValue_meets hsize hs hcan
  | append src count => exact append_meets hsize hnull hs hok.1 hcan hok.2.1 hok.2.2
  | appendValue value => exact appendValue_meets hsize hs hcan
  | insert index src count => exact insert_meets hsize hnull hs hok.1 hcan hok.2.1 hok.2.2
  | insertValue index value => exact insertValue_meets hsize hs hcan
  | remove index count => exact remove_meets hsize hclears hs
  | detach => exact detach_meets _

theorem empty_ok (memory : Memory α) : ArrayOk e ⟨memory,none,0,0⟩ where
  owns := nofun
  length_eq := rfl
  count_le := le_rfl
  bytes_lt := by
    show Jancy.Std.sizeofDataBox + e.size * 0 < 2 ^ 64
    rw [Nat.mul_zero]
    decide
  zeros := nofun

theorem takeOver_storage (r : State α) {i src : ℕ} (hne : src ≠ i) (j : ℕ) :
    (takeOver r i src).storage j =
      if j = i then r.storage src else if j = src then ⟨r.memory,none,0,0⟩ else r.storage j := by
  rw [takeOver,if_neg hne]
  rcases eq_or_ne j i with rfl | hji
  · simp [State.storage]
  · rcases eq_or_ne j src with rfl | hjs
    · simp [State.storage,hji]
    · simp [State.storage,hji,hjs]

theorem takeOver_spec (getAllocSize : ℕ → ℕ) (hr : Sound e r) (i src : ℕ) :
    Follows e getAllocSize r (.takeOver i src) (takeOver r i src) ∧
      Sound e (takeOver r i src) := by
  rcases eq_or_ne src i with rfl | hne
  · have hsame : takeOver r src src = r := if_pos rfl
    rw [hsame]
    exact ⟨by rw [Follows,if_pos rfl],hr⟩
  have hptr : ∀ j b, ((takeOver r i src).storage j).ptr = some b →
      (j = i ∧ (r.array src).ptr = some b) ∨ (j ≠ i ∧ j ≠ src ∧ (r.array j).ptr = some b) := by
    intro j b hb
    rw [takeOver_storage r hne] at hb
    split at hb
    · next heq => exact Or.inl ⟨heq,hb⟩
    · split at hb
      · cases hb
      · next hji hjs => exact Or.inr ⟨hji,hjs,hb⟩
  refine ⟨?_,fun j => ?_,fun j k b hj hk => ?_⟩
  · rw [Follows,if_neg hne]
    refine ⟨?_,?_,fun j hji hjs => ?_⟩
    · rw [takeOver_storage r hne,if_pos rfl]
    · rw [takeOver_storage r hne,if_neg hne,if_pos rfl]
      rfl
    · rw [takeOver_storage r hne,if_neg hji,if_neg hjs]
  · rw [takeOver_storage r hne]
    split
    · exact hr.array src
    · split
      · exact empty_ok _
      · exact hr.array j
  · rcases hptr j b hj with ⟨rfl,hsrc⟩ | ⟨-,hjs,hold⟩
    · rcases hptr k b hk with ⟨rfl,-⟩ | ⟨-,hks,hold⟩
      · rfl
      · exact absurd (hr.apart _ _ b hold hsrc) hks
    · rcases hptr k b hk with ⟨rfl,hsrc⟩ | ⟨-,-,hold'⟩
      · exact absurd (hr.apart _ _ b hold hsrc) hjs
      · exact hr.apart _ _ b hold hold'

theorem step_spec (hsize : 0 < e.size) (hnull : e.acceptsNull = false)
    (hclears : e.clearsRemoved = true) (hr : Sound e r) {label : Label α}
    (hok : StepOk e getAllocSize r label) :
    ∃ r', step e getAllocSize r label = some r' ∧
      (Follows e getAllocSize r label r' ∧ Sound e r') ∧ Sound e r' := by
  cases label with
  | call i call hasMemory =>
    rcases call_meets hsize hnull hclears (hr.array i) hok with ⟨hfails,heq⟩ |
      ⟨hnot,t,heq,harray,hkeeps,hcontent⟩
    · have hput := r.put_storage i
      have hrun : step e getAllocSize r (.call i call hasMemory) = some r := by
        rw [step,heq]
        exact congrArg some hput
      refine ⟨r,hrun,⟨⟨⟨false,_,heq,?_,?_,by rintro ⟨⟩⟩,?_⟩,hr⟩,hr⟩
      · exact ⟨fun _ => hfails,fun _ => rfl⟩
      · exact fun _ => rfl
      · exact fun _ _ => rfl
    · obtain ⟨hsound,hothers⟩ := hr.put harray hkeeps
      refine ⟨r.put i t,by rw [step,heq,Option.map_some],⟨⟨⟨true,t,heq,?_,by rintro ⟨⟩,?_⟩,
        hothers⟩,
        hsound⟩,hsound⟩
      · exact ⟨by rintro ⟨⟩,fun hfails => absurd hfails hnot⟩
      · intro _
        rw [State.storage_put,hcontent]
  | takeOver i src =>
    have h := takeOver_spec getAllocSize hr i src
    exact ⟨_,rfl,h,h.2⟩
  | other memory =>
    obtain ⟨hlength,hblock⟩ := hok
    have hmemory := fun j => (hr.array j).of_memory hlength (hblock j)
    have hsound : Sound e { r with memory } := ⟨fun j => (hmemory j).1,hr.apart⟩
    exact ⟨_,rfl,⟨fun j => (hmemory j).2,hsound⟩,hsound⟩

/-- No array has a block yet. -/
def start (memory : Memory α) : State α := ⟨memory,fun _ => ⟨none,0,0⟩⟩

theorem start_sound (memory : Memory α) : Sound e (start memory) :=
  ⟨fun _ => empty_ok memory,fun _ _ _ h => by cases h⟩

end Jancy.Stdt.Array
