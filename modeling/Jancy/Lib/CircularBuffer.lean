import Mathlib.Data.List.Basic
import Mathlib.Data.PNat.Defs

/-! Bounded byte queues that never hold more than their size, and unbounded queues of blocks to
compare them with. -/

structure CircularBuffer (α : Type) where
  bufferSize : ℕ
  data : List α
  positive : 0 < bufferSize
  fits : data.length ≤ bufferSize

namespace CircularBuffer

variable {α : Type} (b : CircularBuffer α)

def ofSize (α : Type) (size : ℕ+) : CircularBuffer α := ⟨size,[],size.pos,Nat.zero_le _⟩

def clear : CircularBuffer α := ofSize α ⟨b.bufferSize,b.positive⟩

def isEmpty : Bool := b.data.isEmpty

def isFull : Bool := decide (b.data.length = b.bufferSize)

/-- Room for more. -/
def space : ℕ := b.bufferSize - b.data.length

/-- As much of `p` as there is room for, with its size. -/
def write (p : List α) : ℕ × CircularBuffer α :=
  (min p.length b.space,
    { b with
      data := b.data ++ p.take b.space
      fits := by
        have := b.fits
        simp only [List.length_append,List.length_take,space]
        omega })

def read (size : ℕ) : List α × CircularBuffer α :=
  (b.data.take size,
    { b with
      data := b.data.drop size
      fits := by
        have := b.fits
        simp only [List.length_drop]
        omega })

def readAll : List α × CircularBuffer α := b.read b.data.length

@[simp] theorem clear_data : b.clear.data = [] := rfl

@[simp] theorem clear_bufferSize : b.clear.bufferSize = b.bufferSize := rfl

@[simp] theorem ofSize_data (size : ℕ+) : (ofSize α size).data = [] := rfl

@[simp] theorem write_fst (p : List α) : (b.write p).1 = min p.length b.space := rfl

@[simp] theorem write_data (p : List α) : (b.write p).2.data = b.data ++ p.take b.space := rfl

@[simp] theorem write_bufferSize (p : List α) : (b.write p).2.bufferSize = b.bufferSize := rfl

@[simp] theorem read_fst (size : ℕ) : (b.read size).1 = b.data.take size := rfl

@[simp] theorem read_data (size : ℕ) : (b.read size).2.data = b.data.drop size := rfl

@[simp] theorem read_bufferSize (size : ℕ) : (b.read size).2.bufferSize = b.bufferSize := rfl

@[simp] theorem readAll_fst : b.readAll.1 = b.data := by simp [readAll]

@[simp] theorem readAll_data : b.readAll.2.data = [] := by simp [readAll]

theorem isEmpty_iff : b.isEmpty = true ↔ b.data = [] := by simp [isEmpty]

theorem isFull_iff : b.isFull = true ↔ b.space = 0 := by
  have := b.fits
  simp only [isFull,space,decide_eq_true_eq]
  omega

theorem not_isFull_iff : b.isFull = false ↔ 0 < b.space := by
  have := b.isFull_iff
  cases h : b.isFull with
  | true =>
    have := this.mp h
    simp [this]
  | false =>
    have hne : b.space ≠ 0 := fun hz => by simp [this.mpr hz] at h
    simp [Nat.pos_of_ne_zero hne]

theorem write_full {p : List α} (h : (b.write p).1 < p.length) : (b.write p).2.isFull = true := by
  rw [isFull_iff]
  simp only [write_fst,space,write_bufferSize,write_data,List.length_append,List.length_take] at *
  omega

theorem write_rest (p : List α) : p.take b.space = p.take (b.write p).1 := by
  rw [write_fst,List.take_eq_take_iff]
  omega

end CircularBuffer

structure Block (α : Type) where
  data : List α
  params : List α
  deriving DecidableEq, Repr

/-- A queue that keeps the boundaries of its blocks, or one that does not. -/
inductive BlockFifo (α : Type) where
  | stream (bytes : List α)
  | blocks (blocks : List (Block α))
  deriving DecidableEq, Repr

namespace BlockFifo

variable {α : Type}

/-- The bytes of blocks one after the other. -/
def bytesOf (l : List (Block α)) : List α := l.flatMap Block.data

@[simp] theorem bytesOf_nil : bytesOf ([] : List (Block α)) = [] := rfl

@[simp] theorem bytesOf_cons (b : Block α) (l : List (Block α)) :
    bytesOf (b :: l) = b.data ++ bytesOf l := rfl

@[simp] theorem bytesOf_append (l l' : List (Block α)) :
    bytesOf (l ++ l') = bytesOf l ++ bytesOf l' := List.flatMap_append

def empty (keep : Bool) : BlockFifo α := if keep then .blocks [] else .stream []

def put (b : Block α) : BlockFifo α → BlockFifo α
  | .stream bytes => .stream (bytes ++ b.data)
  | .blocks l => .blocks (l ++ [b])

/-- At most `size` bytes of the first block; a queue that is cut drops the rest of it. -/
def take (cut : Bool) (size : ℕ) : BlockFifo α → Block α × BlockFifo α
  | .stream bytes => (⟨bytes.take size,[]⟩,.stream (bytes.drop size))
  | .blocks [] => (⟨[],[]⟩,.blocks [])
  | .blocks (b :: l) =>
      (⟨b.data.take size,b.params⟩,
        if cut = true ∨ b.data.length ≤ size then .blocks l
        else .blocks (⟨b.data.drop size,b.params⟩ :: l))

/-- The first block, or all there is. -/
def takeBlock : BlockFifo α → Block α × BlockFifo α
  | .stream bytes => (⟨bytes,[]⟩,.stream [])
  | .blocks [] => (⟨[],[]⟩,.blocks [])
  | .blocks (b :: l) => (b,.blocks l)

/-- Without its contents. -/
def clear : BlockFifo α → BlockFifo α
  | .stream _ => .stream []
  | .blocks _ => .blocks []

/-- Whether boundaries are kept, which no operation changes. -/
def keeps : BlockFifo α → Bool
  | .stream _ => false
  | .blocks _ => true

variable (f : BlockFifo α)

@[simp] theorem keeps_empty (keep : Bool) : (empty keep : BlockFifo α).keeps = keep := by
  cases keep
  · rfl
  · rfl

@[simp] theorem keeps_put (b : Block α) : (f.put b).keeps = f.keeps := by
  cases f
  · rfl
  · rfl

@[simp] theorem keeps_take (cut : Bool) (size : ℕ) : (f.take cut size).2.keeps = f.keeps := by
  cases f with
  | stream bytes => rfl
  | blocks l =>
    cases l with
    | nil => rfl
    | cons b l =>
      simp only [take]
      split_ifs
      · rfl
      · rfl

@[simp] theorem keeps_takeBlock : f.takeBlock.2.keeps = f.keeps := by
  cases f with
  | stream bytes => rfl
  | blocks l =>
    cases l
    · rfl
    · rfl

@[simp] theorem keeps_clear : f.clear.keeps = f.keeps := by
  cases f
  · rfl
  · rfl

end BlockFifo
