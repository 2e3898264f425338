import Jancy.Std.Array

/-! Arrays and buffers follow the list model in every run whose steps meet its conditions. -/
namespace Jancy.Std

open Blocks

variable {α : Type} {e : Elements α} {getAllocSize : ℕ → ℕ} {hasMemory : Bool}
  {s s' : Storage α} {src : Option Ptr} {count index : ℕ} {memory : Memory α} {xs : List α}

namespace Elements

theorem wrapped_eq (hsize : 0 < e.size) (h : e.size * count < 2 ^ 64) : e.wrapped count = count := by
  rw [wrapped,Nat.mod_eq_of_lt h,Nat.mul_div_cancel_left _ hsize]

/-- What is read at a source. -/
def sourceAt (e : Elements α) (memory : Memory α) (src : Option Ptr) (count : ℕ) :
    Option (List α) :=
  if e.acceptsNull && src.isNone then some (List.replicate count e.zero)
  else load memory src count

theorem length_of_sourceAt (h : e.sourceAt memory src count = some xs) : xs.length = count := by
  unfold sourceAt at h
  split at h
  · rw [← Option.some.inj h,List.length_replicate]
  · exact length_of_load h

theorem sourceAt_congr {memory' : Memory α} (h : load memory' src count = load memory src count) :
    e.sourceAt memory' src count = e.sourceAt memory src count := by
  unfold sourceAt
  rw [h]

end Elements

namespace Storage

/-- The block is there, and has the capacity that is told. -/
structure WF (e : Elements α) (s : Storage α) : Prop where
  owns : Owns s.memory s.ptr
  length_eq : s.block.length = s.maxCount
  count_le : s.count ≤ s.maxCount
  bytes_lt : sizeofDataBox + e.size * s.maxCount < 2 ^ 64

theorem WF.wrapped_eq (hs : WF e s) (hsize : 0 < e.size) (h : count ≤ s.maxCount) :
    e.wrapped count = count := by
  have hbytes := hs.bytes_lt
  have hmul := Nat.mul_le_mul_left e.size h
  exact e.wrapped_eq hsize (by omega)

theorem WF.content_length (hs : WF e s) : s.content.length = s.count := by
  have hlength := hs.length_eq
  have hcount := hs.count_le
  rw [content,List.length_take]
  omega

variable {l : List α}

theorem WF.setBlock (hs : WF e s) (hl : l.length = s.block.length) (hcount : count ≤ s.maxCount) :
    WF e { s with memory := Blocks.setBlock s.memory s.ptr l,count } where
  owns := hs.owns.setBlock l
  length_eq := by
    show (blockAt (Blocks.setBlock s.memory s.ptr l) s.ptr).length = s.maxCount
    rw [blockAt_setBlock hs.owns hl,hl,hs.length_eq]
  count_le := hcount
  bytes_lt := hs.bytes_lt

theorem content_setBlock (hs : WF e s) (hl : l.length = s.block.length) (count : ℕ) :
    content { s with memory := Blocks.setBlock s.memory s.ptr l,count } = l.take count := by
  show (blockAt (Blocks.setBlock s.memory s.ptr l) s.ptr).take count = l.take count
  rw [blockAt_setBlock hs.owns hl]

theorem sourceAt_of_readable (h : Readable e s src count) :
    e.sourceAt s.memory src count = some (source e s src count) := by
  unfold Elements.sourceAt source
  rcases h with ⟨hnull,rfl⟩ | hload
  · simp [hnull]
  · obtain ⟨xs,hxs⟩ := Option.isSome_iff_exists.1 hload
    rw [hxs]
    split <;> rfl

/-- Room for so many elements, in the old block or in a new one. -/
structure Reserved (e : Elements α) (s s' : Storage α) (count : ℕ) : Prop where
  wf : WF e s'
  count_eq : s'.count = s.count
  content_eq : s'.content = s.content
  room : count ≤ s'.maxCount
  same : count ≤ s.maxCount → s' = s
  fresh : s.maxCount < count → s'.ptr = some s.memory.length ∧
    ∀ x ∈ s'.block.drop s.count, x = e.zero
  grown : ∃ blocks, s'.memory = s.memory ++ blocks

theorem reserve_spec (hsize : 0 < e.size) (hs : WF e s)
    (hcan : hasMemory = true → CanReserve e getAllocSize s count) :
    (s.maxCount < count ∧ hasMemory = false) ∧
        reserve e getAllocSize hasMemory count s = some (false,s) ∨
      ¬(s.maxCount < count ∧ hasMemory = false) ∧
        ∃ s',reserve e getAllocSize hasMemory count s = some (true,s') ∧ Reserved e s s' count := by
  unfold reserve
  by_cases hroom : count ≤ s.maxCount
  · refine Or.inr ⟨fun h => Nat.not_lt.2 hroom h.1,s,if_pos hroom,?_⟩
    exact ⟨hs,rfl,rfl,hroom,fun _ => rfl,fun h => absurd h (Nat.not_lt.2 hroom),[],by simp⟩
  rw [if_neg hroom]
  have hlt : s.maxCount < count := Nat.lt_of_not_le hroom
  cases hasMemory with
  | false => exact Or.inl ⟨⟨hlt,rfl⟩,rfl⟩
  | true =>
    refine Or.inr ⟨by simp,?_⟩
    obtain ⟨hle,hbytes⟩ := hcan rfl hlt
    have hcount := hs.count_le
    generalize getAllocSize count = maxCount at hle hbytes
    -- the new block has its full size, and the elements are copied to its beginning
    have hmod : e.size * maxCount % 2 ^ 64 = e.size * maxCount := Nat.mod_eq_of_lt (by omega)
    have hnew : e.tryAllocateArray true maxCount =
        some (some (List.replicate maxCount e.zero)) := by
      unfold Elements.tryAllocateArray
      rw [e.wrapped_eq hsize (by omega),hmod,if_pos hbytes]
      rfl
    let block := List.replicate maxCount e.zero
    have hblock : blockAt (s.memory ++ [block]) (some s.memory.length) = block := by
      simp [blockAt]
    have hload : load (s.memory ++ [block]) (ptrAt s.ptr 0) s.count = some s.content := by
      have hlength : 0 + s.count ≤ (blockAt s.memory s.ptr).length := by
        rw [Nat.zero_add]
        exact hcount.trans_eq hs.length_eq.symm
      exact load_append (load_ptrAt hlength) _
    have hfits : 0 + s.content.length ≤
        (blockAt (s.memory ++ [block]) (some s.memory.length)).length := by
      rw [hblock,List.length_replicate,hs.content_length]
      omega
    have hapart : ¬Overlaps (ptrAt (some s.memory.length) 0) (ptrAt s.ptr 0) s.count := by
      rintro ⟨_,⟨⟩,q,hq,hsame,-⟩
      obtain ⟨b,hb,rfl⟩ := Option.map_eq_some_iff.1 hq
      have hlt := hs.owns b hb
      exact (Nat.ne_of_gt hlt) hsame
    have hcopy : memcpy (s.memory ++ [block]) (ptrAt (some s.memory.length) 0) (ptrAt s.ptr 0)
        (e.wrapped s.count) =
        some (setBlock (s.memory ++ [block]) (some s.memory.length) (splice block 0 s.content)) := by
      rw [hs.wrapped_eq hsize hcount,memcpy,if_neg hapart,memmove,hload]
      exact (store_ptrAt hfits).trans (by rw [hblock])
    simp only [hnew,Option.bind_some]
    rw [hblock] at hfits
    have hlength : (splice block 0 s.content).length = maxCount := by
      rw [length_splice hfits,List.length_replicate]
    have howns : Owns (s.memory ++ [block]) (some s.memory.length) := by
      rintro _ ⟨⟩
      simp
    have hset : blockAt (setBlock (s.memory ++ [block]) (some s.memory.length)
        (splice block 0 s.content)) (some s.memory.length) = splice block 0 s.content :=
      blockAt_setBlock howns (by rw [hblock,hlength,List.length_replicate])
    refine ⟨_,congrArg (Option.map _) hcopy,?_⟩
    constructor
    case wf =>
      exact ⟨howns.setBlock _,by rw [Storage.block,hset,hlength],
        show s.count ≤ maxCount by omega,hbytes⟩
    case count_eq => rfl
    case content_eq =>
      show (blockAt _ _).take s.count = s.content
      rw [hset]
      rw [← hs.content_length]
      exact take_splice_zero block s.content
    case room => exact hle
    case same => exact fun h => absurd h hroom
    case fresh =>
      refine fun _ => ⟨rfl,fun x hx => ?_⟩
      rw [Storage.block,hset] at hx
      rw [← hs.content_length,drop_splice_zero] at hx
      exact List.eq_of_mem_replicate (List.mem_of_mem_drop hx)
    case grown =>
      refine ⟨[splice block 0 s.content],?_⟩
      simp [setBlock]

theorem Reserved.sourceAt {room : ℕ} (h : Reserved e s s' room) (hread : Readable e s src count) :
    e.sourceAt s'.memory src count = some (source e s src count) := by
  obtain ⟨blocks,hgrown⟩ := h.grown
  have hsource := sourceAt_of_readable hread
  unfold Elements.sourceAt at hsource ⊢
  split
  next hnull => rwa [if_pos hnull] at hsource
  next hnull =>
    rw [if_neg hnull] at hsource
    rw [hgrown]
    exact load_append hsource _

theorem Reserved.apart {room last : ℕ} (h : Reserved e s s' room) (hread : Readable e s src count)
    (halias : s.NotAliased room index last src count) : Apart s'.ptr index last src count := by
  intro q hq hptr hpos
  rcases Nat.lt_or_ge s.maxCount room with hlt | hle
  · obtain ⟨hfresh,-⟩ := h.fresh hlt
    obtain rfl : src = some q := hq
    rcases hread with ⟨-,hnull⟩ | hload
    · cases hnull
    · obtain ⟨xs,hxs⟩ := Option.isSome_iff_exists.1 hload
      have hold := block_lt_of_load hxs hpos
      have hnew : q.block = s.memory.length := Option.some.inj (hptr.symm.trans hfresh)
      omega
  · obtain rfl := h.same hle
    exact halias q hq hptr hle hpos

theorem fill_eq {ptr : Option ℕ} (hwrapped : e.wrapped count = count)
    (hsource : e.sourceAt memory src count = some xs)
    (hapart : Apart ptr index (index + count) src count)
    (hfits : index + count ≤ (blockAt memory ptr).length) :
    fill e memory (ptrAt ptr index) src count =
      some (Blocks.setBlock memory ptr (splice (blockAt memory ptr) index xs)) := by
  unfold fill Elements.sourceAt at *
  rw [hwrapped]
  split
  next hnull =>
    rw [if_pos hnull] at hsource
    rw [← Option.some.inj hsource]
    exact memset_ptrAt _ hfits
  next hnull =>
    rw [if_neg hnull] at hsource
    exact memcpy_ptrAt hsource hapart hfits

theorem copy_spec (hsize : 0 < e.size) (hs : WF e s)
    (hcan : hasMemory = true → CanReserve e getAllocSize s count)
    (hread : Readable e s src count) (halias : s.NotAliased count 0 count src count) :
    (s.maxCount < count ∧ hasMemory = false) ∧
        copy e getAllocSize hasMemory src count s = some (none,s) ∨
      ¬(s.maxCount < count ∧ hasMemory = false) ∧
        ∃ s',copy e getAllocSize hasMemory src count s = some (some count,s') ∧ WF e s' ∧
          s'.content = source e s src count := by
  unfold copy
  rcases reserve_spec hsize hs hcan with ⟨hfails,heq⟩ | ⟨hnot,s',heq,h⟩
  · exact Or.inl ⟨hfails,by rw [heq]; rfl⟩
  refine Or.inr ⟨hnot,?_⟩
  rw [heq]
  have hsource := h.sourceAt hread
  have hlength := e.length_of_sourceAt hsource
  have hfits : 0 + count ≤ s'.block.length := by
    rw [h.wf.length_eq,Nat.zero_add]
    exact h.room
  have hfill := fill_eq (h.wf.wrapped_eq hsize h.room) hsource
    (by rw [Nat.zero_add]; exact h.apart hread halias) hfits
  have hsplice : (splice s'.block 0 (source e s src count)).length = s'.block.length :=
    length_splice (by rwa [hlength])
  refine ⟨_,congrArg (Option.map _) hfill,h.wf.setBlock hsplice h.room,?_⟩
  refine (content_setBlock h.wf hsplice _).trans ?_
  have htake := take_splice_zero s'.block (source e s src count)
  rwa [hlength] at htake

theorem moved_eq (hs : WF e s) (hsize : 0 < e.size) (hindex : index ≤ s.count)
    (hroom : s.count + count ≤ s.maxCount) :
    (if index < s.count then
        memmove s.memory (ptrAt s.ptr (index + count)) (ptrAt s.ptr index)
          (e.wrapped (s.count - index))
      else some s.memory) =
      some (Blocks.setBlock s.memory s.ptr
        (splice s.block (index + count) ((s.block.drop index).take (s.count - index)))) := by
  have hlength := hs.length_eq
  split
  next hlt =>
    rw [hs.wrapped_eq hsize (by omega),memmove,load_ptrAt (by rw [← block]; omega)]
    refine store_ptrAt ?_
    rw [← block,List.length_take,List.length_drop]
    omega
  next hle =>
    have hempty : s.count - index = 0 := by omega
    rw [hempty,List.take_zero,splice_nil]
    exact congrArg some (setBlock_self _ _).symm

theorem gap_filled (hs : WF e s) (hindex : index ≤ s.count) (hroom : s.count + count ≤ s.maxCount)
    (hxs : xs.length = count) (hl : l = splice (splice s.block (index + count)
      ((s.block.drop index).take (s.count - index))) index xs) :
    l.length = s.block.length ∧
      l.take (s.count + count) = s.content.take index ++ xs ++ s.content.drop index ∧
      l.drop (s.count + count) = s.block.drop (s.count + count) := by
  have hlength := hs.length_eq
  have htake : s.content.take index = s.block.take index := by
    rw [content,List.take_take,Nat.min_eq_left hindex]
  have hdrop : s.content.drop index = (s.block.drop index).take (s.count - index) := by
    rw [content,List.drop_take]
  rw [htake,hdrop]
  generalize htail : (s.block.drop index).take (s.count - index) = tail at hl
  have htail_length : tail.length = s.count - index := by
    rw [← htail,List.length_take,List.length_drop]
    omega
  have hall : l = s.block.take index ++ xs ++ tail ++ s.block.drop (s.count + count) := by
    subst hxs
    rw [hl,splice_splice (by omega),← List.append_assoc,← List.append_assoc]
    congr 2
    omega
  have hfront : (s.block.take index ++ xs ++ tail).length = s.count + count := by
    simp only [List.length_append,List.length_take]
    omega
  refine ⟨?_,?_,?_⟩
  · rw [hl,length_splice (by rw [length_splice (by omega)]; omega),length_splice (by omega)]
  · rw [hall,List.take_left' hfront]
  · rw [hall,List.drop_left' hfront]

theorem inserted_eq (hs : WF e s) (hsize : 0 < e.size) (hindex : index ≤ s.count)
    (hroom : s.count + count ≤ s.maxCount) (hsource : e.sourceAt s.memory src count = some xs)
    (hapart : Apart s.ptr index (s.count + count) src count) :
    ∃ l,((if index < s.count then
            memmove s.memory (ptrAt s.ptr (index + count)) (ptrAt s.ptr index)
              (e.wrapped (s.count - index))
          else some s.memory).bind fun memory => fill e memory (ptrAt s.ptr index) src count) =
        some (Blocks.setBlock s.memory s.ptr l) ∧ l.length = s.block.length ∧
      l.take (s.count + count) = s.content.take index ++ xs ++ s.content.drop index ∧
      l.drop (s.count + count) = s.block.drop (s.count + count) := by
  have hlength := hs.length_eq
  obtain ⟨hl,hcontent,hbehind⟩ := gap_filled hs hindex hroom (e.length_of_sourceAt hsource) rfl
  rw [moved_eq hs hsize hindex hroom]
  generalize htail : (s.block.drop index).take (s.count - index) = tail at hl hcontent hbehind
  have htail_length : tail.length = s.count - index := by
    rw [← htail,List.length_take,List.length_drop]
    omega
  have hl₁ : (splice s.block (index + count) tail).length = s.block.length :=
    length_splice (by omega)
  have hblock := blockAt_setBlock hs.owns hl₁
  -- what is at the source stays when the tail is moved
  have hsource₁ : e.sourceAt
      (Blocks.setBlock s.memory s.ptr (splice s.block (index + count) tail)) src count =
      some xs := by
    rw [e.sourceAt_congr,hsource]
    refine load_splice hs.owns (by rw [← block]; omega) fun q hq hptr hpos => ?_
    have := hapart q hq hptr hpos
    omega
  have hfill := fill_eq (hs.wrapped_eq hsize (by omega : count ≤ s.maxCount)) hsource₁
    (hapart.mono (by omega)) (by rw [hblock]; omega)
  rw [hblock,setBlock_setBlock] at hfill
  exact ⟨_,hfill,hl,hcontent,hbehind⟩

theorem content_take_min (hs : WF e s) (index : ℕ) :
    s.content.take (min index s.count) = s.content.take index := by
  rw [← hs.content_length]
  exact List.take_eq_take_min.symm

theorem content_drop_min (hs : WF e s) (index : ℕ) :
    s.content.drop (min index s.count) = s.content.drop index := by
  rw [← hs.content_length]
  exact List.drop_eq_drop_min.symm

theorem insert_spec (hsize : 0 < e.size) (hs : WF e s) (hsum : s.count + count < 2 ^ 64)
    (hcan : hasMemory = true → CanReserve e getAllocSize s (s.count + count))
    (hread : Readable e s src count)
    (halias : s.NotAliased (s.count + count) (min index s.count) (s.count + count) src count) :
    (s.maxCount < s.count + count ∧ hasMemory = false) ∧
        insert e getAllocSize hasMemory index src count s = some (none,s) ∨
      ¬(s.maxCount < s.count + count ∧ hasMemory = false) ∧
        ∃ s',insert e getAllocSize hasMemory index src count s =
            some (some (s.count + count),s') ∧ WF e s' ∧
          s'.content = s.content.take index ++ source e s src count ++ s.content.drop index := by
  unfold insert
  simp only [Nat.mod_eq_of_lt hsum]
  rcases reserve_spec hsize hs hcan with ⟨hfails,heq⟩ | ⟨hnot,s',heq,h⟩
  · exact Or.inl ⟨hfails,by rw [heq]; rfl⟩
  refine Or.inr ⟨hnot,?_⟩
  have hcount := h.count_eq
  have hroom := h.room
  have hapart := h.apart hread halias
  rw [← hcount] at hroom hapart
  obtain ⟨l,hmemory,hl,hcontent,-⟩ :=
    inserted_eq h.wf hsize (Nat.min_le_right index s'.count) hroom (h.sourceAt hread) hapart
  rw [content_take_min h.wf,content_drop_min h.wf,h.content_eq] at hcontent
  rw [heq,← hcount]
  refine ⟨_,?_,h.wf.setBlock hl hroom,(content_setBlock h.wf hl _).trans hcontent⟩
  simp only [Option.bind_some]
  exact (Option.map_bind ..).symm.trans (congrArg (Option.map _) hmemory)

theorem removed_eq (hs : WF e s) (hsize : 0 < e.size) (hle : index + count ≤ s.count) :
    ∃ l,memmove s.memory (ptrAt s.ptr index) (ptrAt s.ptr (index + count))
          (e.wrapped (s.count - (index + count))) = some (Blocks.setBlock s.memory s.ptr l) ∧
      l.length = s.block.length ∧
      l.take (s.count - count) = s.content.take index ++ s.content.drop (index + count) ∧
      l.drop s.count = s.block.drop s.count := by
  have hlength := hs.length_eq
  have hcount := hs.count_le
  have htake : s.content.take index = s.block.take index := by
    rw [content,List.take_take,Nat.min_eq_left (by omega)]
  have hdrop : s.content.drop (index + count) =
      (s.block.drop (index + count)).take (s.count - (index + count)) := by
    rw [content,List.drop_take]
  rw [htake,hdrop,hs.wrapped_eq hsize (by omega),memmove,load_ptrAt (by rw [← block]; omega),← block]
  generalize htail : (s.block.drop (index + count)).take (s.count - (index + count)) = tail
  have htail_length : tail.length = s.count - (index + count) := by
    rw [← htail,List.length_take,List.length_drop]
    omega
  have hfits : index + tail.length ≤ s.block.length := by omega
  refine ⟨_,store_ptrAt hfits,length_splice hfits,?_,window_splice_after (by omega) ?_⟩
  swap
  · show index ≤ s.block.length
    omega
  rw [← take_splice_end (by omega),htail_length]
  exact congrArg (List.take · _) (by omega)

theorem zeros_splice {zero : α} (hle : index ≤ l.length)
    (h : ∀ x ∈ l.drop (index + count), x = zero) :
    ∀ x ∈ (splice l index (List.replicate count zero)).drop index, x = zero := by
  intro x hx
  rw [splice,List.drop_left' (by simp [hle]),List.mem_append,List.length_replicate] at hx
  rcases hx with hx | hx
  · exact List.eq_of_mem_replicate hx
  · exact h x hx

theorem removed_content (hs : WF e s) (index count : ℕ) :
    s.content.take (min index s.count) ++
        s.content.drop (min index s.count + min count (s.count - min index s.count)) =
      s.content.take index ++ s.content.drop (index + count) := by
  have hmin : min index s.count + min count (s.count - min index s.count) =
      min (index + count) s.count := by omega
  rw [hmin,content_take_min hs,content_drop_min hs]

theorem remove_spec (hsize : 0 < e.size) (hs : WF e s) :
    ∃ s',remove e index count s = some (s'.count,s') ∧ WF e s' ∧
      s'.content = s.content.take index ++ s.content.drop (index + count) ∧
      (e.clearsRemoved = true → (∀ x ∈ s.block.drop s.count, x = e.zero) →
        ∀ x ∈ s'.block.drop s'.count, x = e.zero) ∧
      s'.ptr = s.ptr ∧ ∃ l, s'.memory = Blocks.setBlock s.memory s.ptr l := by
  unfold remove
  have hlength := hs.length_eq
  have hcount := hs.count_le
  rw [← removed_content hs]
  simp only
  generalize min index s.count = i
  generalize hn : min count (s.count - i) = n
  split
  next hzero =>
    refine ⟨s,rfl,hs,?_,fun _ => id,rfl,s.block,(setBlock_self _ _).symm⟩
    rw [hzero]
    exact (List.take_append_drop i s.content).symm
  next hpos =>
    obtain ⟨l₁,hmoved,hl₁,hcontent,hbehind⟩ := removed_eq hs hsize (by omega : i + n ≤ s.count)
    rw [hmoved,Option.bind_some,hs.wrapped_eq hsize (by omega)]
    split
    next =>
      have hblock := blockAt_setBlock hs.owns hl₁
      have hfits : s.count - n + (List.replicate n e.zero).length ≤ l₁.length := by
        rw [hl₁,List.length_replicate]
        omega
      have hclear : memset (Blocks.setBlock s.memory s.ptr l₁) (ptrAt s.ptr (s.count - n)) e.zero n =
          some (Blocks.setBlock s.memory s.ptr
            (splice l₁ (s.count - n) (List.replicate n e.zero))) := by
        refine (store_ptrAt (by rwa [hblock])).trans ?_
        rw [hblock,setBlock_setBlock]
      have hl₂ := (length_splice hfits).trans hl₁
      refine ⟨_,congrArg (Option.map _) hclear,hs.setBlock hl₂ (by omega),?_,fun _ hzeros => ?_,rfl,_,
        rfl⟩
      · refine (content_setBlock hs hl₂ _).trans ?_
        rw [take_splice (by omega),hcontent]
      · show ∀ x ∈ (blockAt (Blocks.setBlock s.memory s.ptr _) s.ptr).drop (s.count - n), x = e.zero
        rw [blockAt_setBlock hs.owns hl₂]
        exact zeros_splice (by omega) (by rwa [show s.count - n + n = s.count by omega,hbehind])
    next hkeeps =>
      refine ⟨_,rfl,hs.setBlock hl₁ (by omega),?_,fun hclears => absurd hclears hkeeps,rfl,_,rfl⟩
      exact (content_setBlock hs hl₁ _).trans hcontent

theorem resize_content (hs : WF e s) (hroom : count ≤ s.maxCount)
    (hexposes : ∀ x ∈ (s.block.take count).drop s.count, x = e.zero) :
    content { s with count } =
      s.content.take count ++ List.replicate (count - s.content.length) e.zero := by
  have hlength := hs.length_eq
  have hexposed : (s.block.take count).drop s.count = List.replicate (count - s.count) e.zero := by
    refine List.eq_replicate_iff.2 ⟨?_,hexposes⟩
    rw [List.length_drop,List.length_take]
    omega
  have htake : s.content.take count = (s.block.take count).take s.count := by
    rw [content,List.take_take,List.take_take,Nat.min_comm]
  rw [hs.content_length,← hexposed,htake]
  exact (List.take_append_drop s.count (s.block.take count)).symm

theorem WF.resize (hs : WF e s) (hroom : count ≤ s.maxCount) : WF e { s with count } :=
  ⟨hs.owns,hs.length_eq,hroom,hs.bytes_lt⟩

theorem Reserved.exposes (h : Reserved e s s' count) (hexposes : Exposes e s count) :
    ∀ x ∈ (s'.block.take count).drop s'.count, x = e.zero := by
  intro x hx
  rw [h.count_eq] at hx
  rcases Nat.lt_or_ge s.maxCount count with hlt | hle
  · rw [List.drop_take] at hx
    exact (h.fresh hlt).2 x (List.mem_of_mem_take hx)
  · obtain rfl := h.same hle
    exact hexposes hle x hx

theorem Reserved.resize_content (h : Reserved e s s' count) (hexposes : Exposes e s count) :
    content { s' with count } =
      s.content.take count ++ List.replicate (count - s.content.length) e.zero := by
  rw [Storage.resize_content h.wf h.room (h.exposes hexposes),h.content_eq]

theorem follows_of_spec {β : Type} {op : StorageOp} {r : Option (β × Storage α)} {x y : β}
    (hs : WF e s)
    (h : (s.maxCount < s.requested op ∧ hasMemory = false) ∧ r = some (x,s) ∨
      ¬(s.maxCount < s.requested op ∧ hasMemory = false) ∧
        ∃ s',r = some (y,s') ∧ WF e s' ∧ s'.content = model e s op s.content) :
    ∃ s',r.map Prod.snd = some s' ∧ Follows e s (.op op hasMemory) s' ∧ WF e s' := by
  rcases h with ⟨hfails,rfl⟩ | ⟨hnot,s',rfl,hs',hcontent⟩
  · exact ⟨s,rfl,⟨fun _ => rfl,fun h => absurd hfails h⟩,hs⟩
  · exact ⟨s',rfl,⟨fun h => absurd h hnot,fun _ => hcontent⟩,hs'⟩

theorem follows_of_content {op : StorageOp} (hop : s.requested op = 0)
    (hcontent : s'.content = model e s op s.content) :
    Follows e s (.op op hasMemory) s' := by
  refine ⟨fun h => ?_,fun _ => hcontent⟩
  have hlt := h.1
  rw [hop] at hlt
  exact absurd hlt (Nat.not_lt_zero _)

theorem follows_other {memory : Memory α} (hs : WF e s)
    (h : s.memory.length ≤ memory.length ∧ blockAt memory s.ptr = s.block) :
    Follows e s (.other memory) { s with memory } ∧ WF e { s with memory } := by
  obtain ⟨hlength,hblock⟩ := h
  refine ⟨congrArg (List.take s.count) hblock,?_⟩
  exact ⟨fun i hi => Nat.lt_of_lt_of_le (hs.owns i hi) hlength,
    (congrArg List.length hblock).trans hs.length_eq,
    hs.count_le,hs.bytes_lt⟩

theorem append_spec (hsize : 0 < e.size) (hs : WF e s) (hsum : s.count + count < 2 ^ 64)
    (hcan : hasMemory = true → CanReserve e getAllocSize s (s.count + count))
    (hread : Readable e s src count)
    (halias : s.NotAliased (s.count + count) s.count (s.count + count) src count) :
    (s.maxCount < s.count + count ∧ hasMemory = false) ∧
        insert e getAllocSize hasMemory (2 ^ 64 - 1) src count s = some (none,s) ∨
      ¬(s.maxCount < s.count + count ∧ hasMemory = false) ∧
        ∃ s',insert e getAllocSize hasMemory (2 ^ 64 - 1) src count s =
            some (some (s.count + count),s') ∧ WF e s' ∧
          s'.content = s.content ++ source e s src count := by
  have hle : s.count ≤ 2 ^ 64 - 1 := by omega
  have halias' : s.NotAliased (s.count + count) (min (2 ^ 64 - 1) s.count) (s.count + count)
      src count := by
    rwa [Nat.min_eq_right hle]
  have hinsert := insert_spec hsize hs hsum hcan hread halias'
  have hlength := hs.content_length
  rwa [List.take_of_length_le (by omega),List.drop_of_length_le (by omega),List.append_nil]
    at hinsert

end Storage

namespace Array

variable {null : α}

theorem variants_size_pos (null : α) : 0 < (variants null).size := Nat.succ_pos 63

theorem clear_spec (hs : Storage.WF (variants null) s) :
    ∃ s',clear null s = some s' ∧ Storage.WF (variants null) s' ∧ s'.content = [] := by
  have hlength := hs.length_eq
  have hcount := hs.count_le
  have hfits : 0 + (List.replicate s.count null).length ≤ s.block.length := by
    rw [List.length_replicate]
    omega
  have hclear : memset s.memory (ptrAt s.ptr 0) null ((variants null).wrapped s.count) =
      some (setBlock s.memory s.ptr (splice s.block 0 (List.replicate s.count null))) := by
    rw [hs.wrapped_eq (variants_size_pos null) hcount]
    exact store_ptrAt hfits
  have hl := length_splice hfits
  exact ⟨_,congrArg (Option.map _) hclear,hs.setBlock hl (Nat.zero_le _),
    Storage.content_setBlock hs hl 0⟩

theorem setCount_spec (hs : Storage.WF (variants null) s)
    (hcan : hasMemory = true → Storage.CanReserve (variants null) getAllocSize s count)
    (hexposes : Storage.Exposes (variants null) s count) :
    (s.maxCount < count ∧ hasMemory = false) ∧
        setCount getAllocSize hasMemory null count s = some (false,s) ∨
      ¬(s.maxCount < count ∧ hasMemory = false) ∧
        ∃ s',setCount getAllocSize hasMemory null count s = some (true,s') ∧
          Storage.WF (variants null) s' ∧
          s'.content =
            s.content.take count ++ List.replicate (count - s.content.length) null := by
  have hlength := hs.length_eq
  have hcount := hs.count_le
  have hcontent := hs.content_length
  unfold setCount
  rcases Nat.lt_trichotomy count s.count with hlt | rfl | hgt
  · -- the elements behind are cleared, and the others stay
    refine Or.inr ⟨fun h => by omega,?_⟩
    rw [if_neg (Nat.ne_of_lt hlt),if_pos hlt]
    have hfits : count + (List.replicate (s.count - count) null).length ≤ s.block.length := by
      rw [List.length_replicate]
      omega
    have hclear : memset s.memory (ptrAt s.ptr count) null
        ((variants null).wrapped (s.count - count)) =
        some (setBlock s.memory s.ptr
          (splice s.block count (List.replicate (s.count - count) null))) := by
      rw [hs.wrapped_eq (variants_size_pos null) (by omega)]
      exact store_ptrAt hfits
    have hl := length_splice hfits
    refine ⟨_,congrArg (Option.map _) hclear,hs.setBlock hl (by omega),?_⟩
    refine (Storage.content_setBlock hs hl _).trans ?_
    have hzero : count - s.content.length = 0 := by omega
    rw [hzero,List.replicate_zero,List.append_nil,take_splice (by omega),Storage.content,
      List.take_take,Nat.min_eq_left (Nat.le_of_lt hlt)]
  · refine Or.inr ⟨fun h => by omega,s,if_pos rfl,hs,?_⟩
    rw [hcontent,Nat.sub_self,List.replicate_zero,List.append_nil,
      List.take_of_length_le (Nat.le_of_eq hcontent)]
  · rw [if_neg (Nat.ne_of_gt hgt),if_neg (Nat.lt_asymm hgt)]
    split
    next hroom =>
      rcases Storage.reserve_spec (variants_size_pos null) hs hcan with
        ⟨hfails,heq⟩ | ⟨hnot,s',heq,h⟩
      · exact Or.inl ⟨hfails,by rw [reserve,heq]; rfl⟩
      · refine Or.inr ⟨hnot,_,congrArg (Option.map _) heq,h.wf.resize h.room,?_⟩
        exact h.resize_content hexposes
    next hroom =>
      have hroom : count ≤ s.maxCount := Nat.le_of_not_lt hroom
      refine Or.inr ⟨fun h => Nat.not_lt.2 hroom h.1,_,rfl,hs.resize hroom,?_⟩
      exact Storage.resize_content hs hroom (hexposes hroom)

theorem step_spec (hs : Storage.WF (variants null) s) {label : StorageLabel α}
    (hok : Storage.StepOk (variants null) getAllocSize s label) :
    ∃ s',step getAllocSize null s label = some s' ∧
      Storage.Follows (variants null) s label s' ∧ Storage.WF (variants null) s' := by
  have hsize := variants_size_pos null
  cases label with
  | other memory => exact ⟨_,rfl,Storage.follows_other hs hok⟩
  | op op hasMemory =>
    obtain ⟨hcan,hok⟩ := hok
    cases op with
    | clear =>
      obtain ⟨s',heq,hs',hcontent⟩ := clear_spec hs
      exact ⟨s',heq,Storage.follows_of_content rfl hcontent,hs'⟩
    | setCount count => exact Storage.follows_of_spec hs (setCount_spec hs hcan hok)
    | reserve count =>
      refine Storage.follows_of_spec (x := false) (y := true) hs ?_
      refine (Storage.reserve_spec hsize hs hcan).imp_right (And.imp_right ?_)
      rintro ⟨s',heq,h⟩
      exact ⟨s',heq,h.wf,h.content_eq⟩
    | copy src count =>
      exact Storage.follows_of_spec hs (Storage.copy_spec hsize hs hcan hok.1 hok.2)
    | insert index src count =>
      exact Storage.follows_of_spec hs
        (Storage.insert_spec hsize hs hok.1 hcan hok.2.1 hok.2.2)
    | append src count =>
      exact Storage.follows_of_spec hs
        (Storage.append_spec hsize hs hok.1 hcan hok.2.1 hok.2.2)
    | remove index count =>
      obtain ⟨s',heq,hs',hcontent,-⟩ := Storage.remove_spec hsize hs
      exact ⟨s',congrArg (Option.map Prod.snd) heq,
        Storage.follows_of_content rfl hcontent,hs'⟩

end Array

namespace Buffer

variable {zero : α}

theorem chars_size_pos (zero : α) : 0 < (chars zero).size := Nat.one_pos

theorem setSize_spec (hs : Storage.WF (chars zero) s)
    (hcan : hasMemory = true → Storage.CanReserve (chars zero) getAllocSize s count)
    (hexposes : Storage.Exposes (chars zero) s count) :
    (s.maxCount < count ∧ hasMemory = false) ∧
        setSize getAllocSize hasMemory zero count s = some (false,s) ∨
      ¬(s.maxCount < count ∧ hasMemory = false) ∧
        ∃ s',setSize getAllocSize hasMemory zero count s = some (true,s') ∧
          Storage.WF (chars zero) s' ∧
          s'.content =
            s.content.take count ++ List.replicate (count - s.content.length) zero := by
  unfold setSize reserve
  rcases Storage.reserve_spec (chars_size_pos zero) hs hcan with
    ⟨hfails,heq⟩ | ⟨hnot,s',heq,h⟩
  · exact Or.inl ⟨hfails,by rw [heq]; rfl⟩
  · refine Or.inr ⟨hnot,_,congrArg (Option.map _) heq,h.wf.resize h.room,?_⟩
    exact h.resize_content hexposes

theorem step_spec (hs : Storage.WF (chars zero) s) {label : StorageLabel α}
    (hok : Storage.StepOk (chars zero) getAllocSize s label) :
    ∃ s',step getAllocSize zero s label = some s' ∧
      Storage.Follows (chars zero) s label s' ∧ Storage.WF (chars zero) s' := by
  have hsize := chars_size_pos zero
  cases label with
  | other memory => exact ⟨_,rfl,Storage.follows_other hs hok⟩
  | op op hasMemory =>
    obtain ⟨hcan,hok⟩ := hok
    cases op with
    | clear =>
      exact ⟨_,rfl,Storage.follows_of_content rfl rfl,hs.resize (Nat.zero_le _)⟩
    | setCount count => exact Storage.follows_of_spec hs (setSize_spec hs hcan hok)
    | reserve count =>
      refine Storage.follows_of_spec (x := false) (y := true) hs ?_
      refine (Storage.reserve_spec hsize hs hcan).imp_right (And.imp_right ?_)
      rintro ⟨s',heq,h⟩
      exact ⟨s',heq,h.wf,h.content_eq⟩
    | copy src count =>
      exact Storage.follows_of_spec hs (Storage.copy_spec hsize hs hcan hok.1 hok.2)
    | insert index src count =>
      exact Storage.follows_of_spec hs
        (Storage.insert_spec hsize hs hok.1 hcan hok.2.1 hok.2.2)
    | append src count =>
      exact Storage.follows_of_spec hs
        (Storage.append_spec hsize hs hok.1 hcan hok.2.1 hok.2.2)
    | remove index count =>
      obtain ⟨s',heq,hs',hcontent,-⟩ := Storage.remove_spec hsize hs
      exact ⟨s',congrArg (Option.map Prod.snd) heq,
        Storage.follows_of_content rfl hcontent,hs'⟩

end Buffer

end Jancy.Std
