import Mathlib.Data.List.Basic

/-! Memory as a list of blocks, with the C functions that copy and fill parts of them. An access
past the end of a block has no result. -/
namespace Blocks

variable {α : Type*}

/-- A block has its number in the list. -/
abbrev Memory (α : Type*) := List (List α)

structure Ptr where
  block : ℕ
  offset : ℕ
  deriving DecidableEq

/-- `xs` in place of the elements from `i` on. -/
def splice (l : List α) (i : ℕ) (xs : List α) : List α :=
  l.take i ++ (xs ++ l.drop (i + xs.length))

/-- Nothing is read through a pointer if there is nothing to read. -/
def load (m : Memory α) (p : Option Ptr) (count : ℕ) : Option (List α) :=
  if count = 0 then some []
  else p.bind fun p => m[p.block]?.bind fun l =>
    if p.offset + count ≤ l.length then some ((l.drop p.offset).take count) else none

def store (m : Memory α) (p : Option Ptr) (xs : List α) : Option (Memory α) :=
  if xs.isEmpty then some m
  else p.bind fun p => m[p.block]?.bind fun l =>
    if p.offset + xs.length ≤ l.length then some (m.set p.block (splice l p.offset xs)) else none

def memset (m : Memory α) (dst : Option Ptr) (x : α) (count : ℕ) : Option (Memory α) :=
  store m dst (List.replicate count x)

def memmove (m : Memory α) (dst src : Option Ptr) (count : ℕ) : Option (Memory α) :=
  (load m src count).bind (store m dst)

/-- Two areas that have elements in common and are not the same. -/
def Overlaps (dst src : Option Ptr) (count : ℕ) : Prop :=
  ∃ p ∈ dst, ∃ q ∈ src, p.block = q.block ∧ p.offset ≠ q.offset ∧
    p.offset < q.offset + count ∧ q.offset < p.offset + count

instance (dst src : Option Ptr) (count : ℕ) : Decidable (Overlaps dst src count) := by
  unfold Overlaps
  infer_instance

/-- Undefined between areas that overlap. -/
def memcpy (m : Memory α) (dst src : Option Ptr) (count : ℕ) : Option (Memory α) :=
  if Overlaps dst src count then none else memmove m dst src count

/-- A pointer into the block; it is null without a block. -/
def ptrAt (b : Option ℕ) (i : ℕ) : Option Ptr := b.map (⟨·,i⟩)

def blockAt (m : Memory α) (b : Option ℕ) : List α := (b.bind (m[·]?)).getD []

def setBlock (m : Memory α) (b : Option ℕ) (l : List α) : Memory α :=
  match b with
  | none => m
  | some b => m.set b l

/-- The block exists. -/
def Owns (m : Memory α) (b : Option ℕ) : Prop := ∀ i ∈ b, i < m.length

section splice

variable {l xs ys : List α} {i j count : ℕ}

@[simp] theorem splice_nil (l : List α) (i : ℕ) : splice l i [] = l := by
  simp [splice]

theorem length_splice (h : i + xs.length ≤ l.length) : (splice l i xs).length = l.length := by
  simp only [splice,List.length_append,List.length_take,List.length_drop]
  omega

theorem take_splice (h : i ≤ l.length) : (splice l i xs).take i = l.take i := by
  rw [splice,List.take_append_of_le_length (by simp [h]),List.take_take,Nat.min_self]

theorem take_splice_end (h : i ≤ l.length) :
    (splice l i xs).take (i + xs.length) = l.take i ++ xs := by
  rw [splice,← List.append_assoc]
  exact List.take_left' (by simp [h])

theorem drop_splice (h : i ≤ l.length) :
    (splice l i xs).drop (i + xs.length) = l.drop (i + xs.length) := by
  rw [splice,← List.append_assoc]
  exact List.drop_left' (by simp [h])

theorem take_splice_zero (l xs : List α) : (splice l 0 xs).take xs.length = xs :=
  List.take_left' rfl

theorem drop_splice_zero (l xs : List α) :
    (splice l 0 xs).drop xs.length = l.drop xs.length := by
  refine (List.drop_left' rfl).trans ?_
  rw [Nat.zero_add]

theorem window_splice (h : j + count ≤ i) (hi : i ≤ l.length) :
    ((splice l i xs).drop j).take count = (l.drop j).take count := by
  have hwindow : ∀ l' : List α, (l'.drop j).take count = ((l'.take i).drop j).take count := by
    intro l'
    rw [List.drop_take,List.take_take,Nat.min_eq_left (by omega)]
  rw [hwindow,hwindow l,take_splice hi]

theorem window_splice_after (h : i + xs.length ≤ j) (hi : i ≤ l.length) :
    (splice l i xs).drop j = l.drop j := by
  obtain ⟨k,rfl⟩ := Nat.exists_eq_add_of_le h
  rw [← List.drop_drop,drop_splice hi,List.drop_drop]

theorem splice_splice (h : i + xs.length + ys.length ≤ l.length) :
    splice (splice l (i + xs.length) ys) i xs =
      l.take i ++ (xs ++ (ys ++ l.drop (i + xs.length + ys.length))) := by
  have hdrop : (splice l (i + xs.length) ys).drop (i + xs.length) =
      ys ++ l.drop (i + xs.length + ys.length) :=
    List.drop_left' (by simp; omega)
  have htake : (splice l (i + xs.length) ys).take i = l.take i := by
    have hwindow : ((splice l (i + xs.length) ys).drop 0).take i = (l.drop 0).take i :=
      window_splice (by omega) (by omega)
    simpa using hwindow
  rw [splice,hdrop,htake]

end splice

section owned

variable {m : Memory α} {b : Option ℕ} {xs : List α} {i count : ℕ}

theorem load_ptrAt (h : i + count ≤ (blockAt m b).length) :
    load m (ptrAt b i) count = some (((blockAt m b).drop i).take count) := by
  unfold load
  split
  next hzero => simp [hzero]
  next hpos =>
    cases b with
    | none =>
      have hlength : i + count ≤ 0 := h
      omega
    | some b =>
      cases hl : m[b]? with
      | none =>
        have hlength : i + count ≤ 0 := by simpa [blockAt,hl] using h
        omega
      | some l =>
        have hblock : blockAt m (some b) = l := by simp [blockAt,hl]
        rw [hblock] at h ⊢
        simp [ptrAt,hl,h]

theorem store_ptrAt (h : i + xs.length ≤ (blockAt m b).length) :
    store m (ptrAt b i) xs = some (setBlock m b (splice (blockAt m b) i xs)) := by
  unfold store
  cases b with
  | none =>
    have hlength : i + xs.length ≤ 0 := h
    have hnil : xs = [] := List.length_eq_zero_iff.1 (by omega)
    rw [hnil]
    rfl
  | some b =>
    cases hl : m[b]? with
    | none =>
      have hlength : i + xs.length ≤ 0 := by simpa [blockAt,hl] using h
      have hnil : xs = [] := List.length_eq_zero_iff.1 (by omega)
      have hout : m.length ≤ b := List.getElem?_eq_none_iff.1 hl
      rw [hnil]
      simp [setBlock,List.set_eq_of_length_le hout]
    | some l =>
      have hblock : blockAt m (some b) = l := by simp [blockAt,hl]
      rw [hblock] at h ⊢
      split
      next hnil =>
        rw [List.isEmpty_iff.1 hnil,splice_nil]
        obtain ⟨hlt,rfl⟩ := List.getElem?_eq_some_iff.1 hl
        exact congrArg some (List.set_getElem_self hlt).symm
      next => simp [ptrAt,hl,h,setBlock]

theorem memset_ptrAt (x : α) (h : i + count ≤ (blockAt m b).length) :
    memset m (ptrAt b i) x count =
      some (setBlock m b (splice (blockAt m b) i (List.replicate count x))) :=
  store_ptrAt (by simpa using h)

theorem blockAt_setBlock {l : List α} (h : Owns m b) (hl : l.length = (blockAt m b).length) :
    blockAt (setBlock m b l) b = l := by
  cases b with
  | none => exact (List.length_eq_zero_iff.1 hl).symm
  | some b =>
    have hlt : b < m.length := h b rfl
    simp [blockAt,setBlock,hlt]

theorem length_setBlock (l : List α) : (setBlock m b l).length = m.length := by
  cases b with
  | none => rfl
  | some b => exact List.length_set

theorem Owns.setBlock (h : Owns m b) (l : List α) : Owns (setBlock m b l) b := by
  intro i hi
  rw [length_setBlock]
  exact h i hi

end owned

section load

variable {m : Memory α} {p : Option Ptr} {xs : List α} {count : ℕ}

theorem length_of_load (h : load m p count = some xs) : xs.length = count := by
  unfold load at h
  split at h
  next hzero => simpa [hzero] using h.symm
  next =>
    obtain ⟨p,-,h⟩ := Option.bind_eq_some_iff.1 h
    obtain ⟨l,-,h⟩ := Option.bind_eq_some_iff.1 h
    split at h
    next hle =>
      obtain rfl := Option.some.inj h
      simp only [List.length_take,List.length_drop]
      omega
    next => cases h

theorem block_lt_of_load {q : Ptr} (h : load m (some q) count = some xs) (hpos : count ≠ 0) :
    q.block < m.length := by
  unfold load at h
  rw [if_neg hpos,Option.bind_some] at h
  obtain ⟨l,hl,-⟩ := Option.bind_eq_some_iff.1 h
  exact (List.getElem?_eq_some_iff.1 hl).1

theorem load_append (h : load m p count = some xs) (m' : Memory α) :
    load (m ++ m') p count = some xs := by
  unfold load at h ⊢
  split at h
  next hzero => simpa [hzero] using h
  next hpos =>
    obtain ⟨q,hq,h⟩ := Option.bind_eq_some_iff.1 h
    obtain ⟨l,hl,h⟩ := Option.bind_eq_some_iff.1 h
    subst hq
    have hlt : q.block < m.length := (List.getElem?_eq_some_iff.1 hl).1
    rw [if_neg hpos]
    simpa [List.getElem?_append_left hlt,hl] using h

theorem load_setBlock {b : Option ℕ} (hp : ∀ q ∈ p, b ≠ some q.block) (l : List α) :
    load (setBlock m b l) p count = load m p count := by
  unfold load
  cases p with
  | none => rfl
  | some p =>
    cases b with
    | none => rfl
    | some b =>
      have hne : b ≠ p.block := fun h => hp p rfl (congrArg some h)
      simp [setBlock,List.getElem?_set_ne hne]

theorem load_splice {b : Option ℕ} {j : ℕ} {ys : List α} (hown : Owns m b)
    (hj : j + ys.length ≤ (blockAt m b).length)
    (h : ∀ q ∈ p, b = some q.block → count ≠ 0 →
      q.offset + count ≤ j ∨ j + ys.length ≤ q.offset) :
    load (setBlock m b (splice (blockAt m b) j ys)) p count = load m p count := by
  by_cases hp : ∃ q ∈ p, b = some q.block
  · obtain ⟨⟨block,i⟩,rfl,rfl⟩ := hp
    by_cases hzero : count = 0
    · simp [load,hzero]
    have hlt : block < m.length := hown block rfl
    have hblock : blockAt m (some block) = m[block] := by simp [blockAt,hlt]
    have hlength := length_splice hj
    rw [hblock] at hj hlength
    simp only [load,hzero,if_false,Option.bind_some,setBlock,hblock,List.getElem?_set_self hlt,
      List.getElem?_eq_getElem hlt,hlength]
    refine if_congr Iff.rfl (congrArg some ?_) rfl
    rcases h _ rfl rfl hzero with hbefore | hafter
    · exact window_splice hbefore (by omega)
    · rw [window_splice_after hafter (by omega)]
  · exact load_setBlock (fun q hq heq => hp ⟨q,hq,heq⟩) _

end load

/-- Where a source may lie, beside an area of the block and what is behind it. -/
def Apart (b : Option ℕ) (i last : ℕ) (src : Option Ptr) (count : ℕ) : Prop :=
  ∀ q ∈ src, b = some q.block → count ≠ 0 → q.offset + count ≤ i ∨ q.offset = i ∨ last ≤ q.offset

theorem Apart.mono {b : Option ℕ} {i last last' count : ℕ} {src : Option Ptr}
    (h : Apart b i last src count) (hle : last' ≤ last) : Apart b i last' src count := by
  intro q hq hb hpos
  have := h q hq hb hpos
  omega

theorem memcpy_ptrAt {m : Memory α} {b : Option ℕ} {i count : ℕ} {src : Option Ptr} {xs : List α}
    (hload : load m src count = some xs) (hapart : Apart b i (i + count) src count)
    (hfits : i + count ≤ (blockAt m b).length) :
    memcpy m (ptrAt b i) src count = some (setBlock m b (splice (blockAt m b) i xs)) := by
  have hno : ¬Overlaps (ptrAt b i) src count := by
    rintro ⟨p,hp,q,hq,hsame,hne,hlt,hlt'⟩
    obtain ⟨block,hb,rfl⟩ := Option.map_eq_some_iff.1 hp
    simp only at hsame hne hlt hlt'
    have := hapart q hq (by rw [hb,hsame]) (by omega)
    omega
  rw [memcpy,if_neg hno,memmove,hload]
  exact store_ptrAt (by rwa [length_of_load hload])

theorem setBlock_self (m : Memory α) (b : Option ℕ) : setBlock m b (blockAt m b) = m := by
  cases b with
  | none => rfl
  | some b =>
    by_cases hb : b < m.length
    · simp [setBlock,blockAt,hb]
    · exact List.set_eq_of_length_le (Nat.le_of_not_lt hb)

theorem setBlock_setBlock (m : Memory α) (b : Option ℕ) (l l' : List α) :
    setBlock (setBlock m b l) b l' = setBlock m b l' := by
  cases b with
  | none => rfl
  | some b => exact List.set_set ..

end Blocks
