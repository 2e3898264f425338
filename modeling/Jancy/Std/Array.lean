import Jancy.Lib.Blocks
import Jancy.Lib.Run
import Mathlib.Algebra.Group.Nat.Defs

/-! Arrays of variants and byte buffers: their storage in blocks of the heap, and what lists of
their operations do. -/
namespace Jancy.Std

open Blocks (Memory Ptr load memset memmove memcpy ptrAt blockAt Owns)

/-- What arrays and buffers do not share. -/
structure Elements (α : Type) where
  size : ℕ
  zero : α
  /-- A null pointer is a source of zeroes. -/
  acceptsNull : Bool
  /-- What is removed is cleared. -/
  clearsRemoved : Bool

/-- A container and the memory it is in; `count` is `m_size` in a buffer. -/
structure Storage (α : Type) where
  memory : Memory α
  ptr : Option ℕ
  count : ℕ
  maxCount : ℕ

def sizeofDataBox : ℕ := 48

variable {α : Type} (e : Elements α) (getAllocSize : ℕ → ℕ) (hasMemory : Bool)

namespace Elements

/-- How many elements there are in the bytes of so many, if their size has wrapped. -/
def wrapped (count : ℕ) : ℕ := e.size * count % 2 ^ 64 / e.size

/-- No block if there is no memory; no result if what is cleared is not in the block. -/
def tryAllocateArray (count : ℕ) : Option (Option (List α)) :=
  if !hasMemory then some none
  else if sizeofDataBox + e.size * count % 2 ^ 64 < 2 ^ 64 then
    some (some (List.replicate (e.wrapped count) e.zero))
  else none

end Elements

namespace Storage

def block (s : Storage α) : List α := blockAt s.memory s.ptr

/-- The elements that are visible. -/
def content (s : Storage α) : List α := s.block.take s.count

def reserve (count : ℕ) (s : Storage α) : Option (Bool × Storage α) :=
  if count ≤ s.maxCount then some (true,s)
  else
    let maxCount := getAllocSize count
    (e.tryAllocateArray hasMemory maxCount).bind fun
      | none => some (false,s)
      | some block =>
          let ptr := some s.memory.length
          (memcpy (s.memory ++ [block]) (ptrAt ptr 0) (ptrAt s.ptr 0) (e.wrapped s.count)).map
            fun memory => (true,⟨memory,ptr,s.count,maxCount⟩)

/-- From the source, if there is one. -/
def fill (memory : Memory α) (dst src : Option Ptr) (count : ℕ) : Option (Memory α) :=
  if e.acceptsNull && src.isNone then memset memory dst e.zero (e.wrapped count)
  else memcpy memory dst src (e.wrapped count)

/-- The first component is what is returned: nothing for −1. -/
def copy (src : Option Ptr) (count : ℕ) (s : Storage α) : Option (Option ℕ × Storage α) :=
  (reserve e getAllocSize hasMemory count s).bind fun (result,s) =>
    if !result then some (none,s)
    else
      (fill e s.memory (ptrAt s.ptr 0) src count).map fun memory =>
        (some count,{ s with memory,count })

def insert (index : ℕ) (src : Option Ptr) (count : ℕ) (s : Storage α) :
    Option (Option ℕ × Storage α) :=
  let newCount := (s.count + count) % 2 ^ 64
  (reserve e getAllocSize hasMemory newCount s).bind fun (result,s) =>
    if !result then some (none,s)
    else
      let index := min index s.count
      let moved :=
        if index < s.count then
          memmove s.memory (ptrAt s.ptr (index + count)) (ptrAt s.ptr index)
            (e.wrapped (s.count - index))
        else some s.memory
      moved.bind fun memory =>
        (fill e memory (ptrAt s.ptr index) src count).map fun memory =>
          (some newCount,{ s with memory,count := newCount })

def remove (index count : ℕ) (s : Storage α) : Option (ℕ × Storage α) :=
  let index := min index s.count
  let count := min count (s.count - index)
  if count = 0 then some (s.count,s)
  else
    let newCount := s.count - count
    let tailIdx := index + count
    (memmove s.memory (ptrAt s.ptr index) (ptrAt s.ptr tailIdx)
        (e.wrapped (s.count - tailIdx))).bind fun memory =>
      let cleared :=
        if e.clearsRemoved then memset memory (ptrAt s.ptr newCount) e.zero (e.wrapped count)
        else some memory
      cleared.map fun memory => (newCount,{ s with memory,count := newCount })

end Storage

/-- The operations, with their parameters. -/
inductive StorageOp where
  | clear
  | setCount (count : ℕ)
  | reserve (count : ℕ)
  | copy (src : Option Ptr) (count : ℕ)
  | insert (index : ℕ) (src : Option Ptr) (count : ℕ)
  | append (src : Option Ptr) (count : ℕ)
  | remove (index count : ℕ)

/-- An operation, with or without memory for a new block, or the rest of the program: it may
allocate and write anything but the block of the container. -/
inductive StorageLabel (α : Type) where
  | op (op : StorageOp) (hasMemory : Bool)
  | other (memory : Memory α)

namespace Array

variable (null : α)

/-- `Variant` has the size of eight pointers. -/
def variants : Elements α where
  size := 64
  zero := null
  acceptsNull := false
  clearsRemoved := true

def clear (s : Storage α) : Option (Storage α) :=
  (memset s.memory (ptrAt s.ptr 0) null ((variants null).wrapped s.count)).map fun memory =>
    { s with memory,count := 0 }

def reserve (count : ℕ) (s : Storage α) : Option (Bool × Storage α) :=
  Storage.reserve (variants null) getAllocSize hasMemory count s

def setCount (count : ℕ) (s : Storage α) : Option (Bool × Storage α) :=
  if count = s.count then some (true,s)
  else if count < s.count then
    (memset s.memory (ptrAt s.ptr count) null ((variants null).wrapped (s.count - count))).map
      fun memory => (true,{ s with memory,count })
  else if s.maxCount < count then
    (reserve getAllocSize hasMemory null count s).map fun (result,s) =>
      if !result then (false,s) else (true,{ s with count })
  else some (true,{ s with count })

def copy (src : Option Ptr) (count : ℕ) (s : Storage α) : Option (Option ℕ × Storage α) :=
  Storage.copy (variants null) getAllocSize hasMemory src count s

def insert (index : ℕ) (src : Option Ptr) (count : ℕ) (s : Storage α) :
    Option (Option ℕ × Storage α) :=
  Storage.insert (variants null) getAllocSize hasMemory index src count s

/-- The index is −1. -/
def append (src : Option Ptr) (count : ℕ) (s : Storage α) : Option (Option ℕ × Storage α) :=
  insert getAllocSize hasMemory null (2 ^ 64 - 1) src count s

def remove (index count : ℕ) (s : Storage α) : Option (ℕ × Storage α) :=
  Storage.remove (variants null) index count s

/-- Nothing if the behaviour is undefined. -/
def step (s : Storage α) : StorageLabel α → Option (Storage α)
  | .op .clear _ => clear null s
  | .op (.setCount count) hasMemory =>
      (setCount getAllocSize hasMemory null count s).map Prod.snd
  | .op (.reserve count) hasMemory => (reserve getAllocSize hasMemory null count s).map Prod.snd
  | .op (.copy src count) hasMemory =>
      (copy getAllocSize hasMemory null src count s).map Prod.snd
  | .op (.insert index src count) hasMemory =>
      (insert getAllocSize hasMemory null index src count s).map Prod.snd
  | .op (.append src count) hasMemory =>
      (append getAllocSize hasMemory null src count s).map Prod.snd
  | .op (.remove index count) _ => (remove null index count s).map Prod.snd
  | .other memory => some { s with memory }

end Array

namespace Buffer

variable (zero : α)

def chars : Elements α where
  size := 1
  zero := zero
  acceptsNull := true
  clearsRemoved := false

def clear (s : Storage α) : Storage α := { s with count := 0 }

def reserve (size : ℕ) (s : Storage α) : Option (Bool × Storage α) :=
  Storage.reserve (chars zero) getAllocSize hasMemory size s

def setSize (size : ℕ) (s : Storage α) : Option (Bool × Storage α) :=
  (reserve getAllocSize hasMemory zero size s).map fun (result,s) =>
    (result,if result then { s with count := size } else s)

def copy (src : Option Ptr) (size : ℕ) (s : Storage α) : Option (Option ℕ × Storage α) :=
  Storage.copy (chars zero) getAllocSize hasMemory src size s

def insert (offset : ℕ) (src : Option Ptr) (size : ℕ) (s : Storage α) :
    Option (Option ℕ × Storage α) :=
  Storage.insert (chars zero) getAllocSize hasMemory offset src size s

/-- The offset is −1. -/
def append (src : Option Ptr) (size : ℕ) (s : Storage α) : Option (Option ℕ × Storage α) :=
  insert getAllocSize hasMemory zero (2 ^ 64 - 1) src size s

def remove (offset size : ℕ) (s : Storage α) : Option (ℕ × Storage α) :=
  Storage.remove (chars zero) offset size s

/-- Nothing if the behaviour is undefined. -/
def step (s : Storage α) : StorageLabel α → Option (Storage α)
  | .op .clear _ => some (clear s)
  | .op (.setCount size) hasMemory => (setSize getAllocSize hasMemory zero size s).map Prod.snd
  | .op (.reserve size) hasMemory => (reserve getAllocSize hasMemory zero size s).map Prod.snd
  | .op (.copy src size) hasMemory => (copy getAllocSize hasMemory zero src size s).map Prod.snd
  | .op (.insert offset src size) hasMemory =>
      (insert getAllocSize hasMemory zero offset src size s).map Prod.snd
  | .op (.append src size) hasMemory =>
      (append getAllocSize hasMemory zero src size s).map Prod.snd
  | .op (.remove offset size) _ => (remove zero offset size s).map Prod.snd
  | .other memory => some { s with memory }

end Buffer

namespace Storage

/-- What an operation finds at its source. -/
def source (s : Storage α) (src : Option Ptr) (count : ℕ) : List α :=
  if e.acceptsNull && src.isNone then List.replicate count e.zero
  else (load s.memory src count).getD []

/-- What the operations do to a list. -/
def model (s : Storage α) : StorageOp → List α → List α
  | .clear,_ => []
  | .setCount count,l => l.take count ++ List.replicate (count - l.length) e.zero
  | .reserve _,l => l
  | .copy src count,_ => source e s src count
  | .insert index src count,l => l.take index ++ source e s src count ++ l.drop index
  | .append src count,l => l ++ source e s src count
  | .remove index count,l => l.take index ++ l.drop (index + count)

/-- How many elements there must be room for. -/
def requested (s : Storage α) : StorageOp → ℕ
  | .clear | .remove _ _ => 0
  | .setCount count | .reserve count | .copy _ count => count
  | .insert _ _ count | .append _ count => s.count + count

/-- A new block is needed, and there is no memory for it. -/
def Fails (s : Storage α) (op : StorageOp) (hasMemory : Bool) : Prop :=
  s.maxCount < s.requested op ∧ hasMemory = false

/-- An operation that fails changes nothing; another one does what it does to a list. -/
def Follows (s : Storage α) (label : StorageLabel α) (s' : Storage α) : Prop :=
  match label with
  | .op op hasMemory =>
      (s.Fails op hasMemory → s' = s) ∧
        (¬s.Fails op hasMemory → s'.content = model e s op s.content)
  | .other _ => s'.content = s.content

/-- There are so many elements at the source. -/
def Readable (s : Storage α) (src : Option Ptr) (count : ℕ) : Prop :=
  (e.acceptsNull = true ∧ src = none) ∨ (load s.memory src count).isSome = true

/-- The sizes of a new block do not wrap. -/
def CanReserve (s : Storage α) (count : ℕ) : Prop :=
  s.maxCount < count → count ≤ getAllocSize count ∧
    sizeofDataBox + e.size * getAllocSize count < 2 ^ 64

/-- A source in the block itself, unless that is replaced by a new one, is not written before it is
read: it ends in front of `index`, or is there, or lies behind all elements. -/
def NotAliased (s : Storage α) (room index newCount : ℕ) (src : Option Ptr) (count : ℕ) : Prop :=
  ∀ p ∈ src, s.ptr = some p.block → room ≤ s.maxCount → count ≠ 0 →
    p.offset + count ≤ index ∨ p.offset = index ∨ newCount ≤ p.offset

/-- The elements behind the visible ones that come into sight are zeroes. -/
def Exposes (s : Storage α) (count : ℕ) : Prop :=
  count ≤ s.maxCount → ∀ x ∈ (s.block.take count).drop s.count, x = e.zero

def StepOk (s : Storage α) : StorageLabel α → Prop
  | .op op hasMemory => (hasMemory = true → CanReserve e getAllocSize s (s.requested op)) ∧
      match op with
      | .clear | .reserve _ | .remove _ _ => True
      | .setCount count => Exposes e s count
      | .copy src count => Readable e s src count ∧ s.NotAliased count 0 count src count
      | .insert index src count => s.count + count < 2 ^ 64 ∧ Readable e s src count ∧
          s.NotAliased (s.count + count) (min index s.count) (s.count + count) src count
      | .append src count => s.count + count < 2 ^ 64 ∧ Readable e s src count ∧
          s.NotAliased (s.count + count) s.count (s.count + count) src count
  | .other memory => s.memory.length ≤ memory.length ∧ blockAt memory s.ptr = s.block

end Storage

end Jancy.Std
