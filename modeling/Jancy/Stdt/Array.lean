import Jancy.Std.ArrayRun

/-! The array template of the `stdt` library: a counted part of a block of the heap, behind which the
block is kept zero. Many arrays share the memory, and take blocks over from each other. -/
namespace Jancy.Stdt.Array

open Blocks (Memory Ptr load store memset memmove memcpy ptrAt blockAt)
open Jancy.Std (Elements Storage)

variable {α : Type}

/-- Elements of the type of the array: `size` is `sizeof(T)`. -/
def elements (size : ℕ) (zero : α) : Elements α where
  size
  zero
  acceptsNull := false
  clearsRemoved := true

variable (e : Elements α) (getAllocSize : ℕ → ℕ) (hasMemory : Bool)

/-! ## The operations

Each of them has the value that it returns, or nothing if it throws; there is no result where memory
is accessed outside the blocks. -/

/-- The number of elements that a new block is made for. -/
def allocCount (count : ℕ) : ℕ := getAllocSize (e.size * count % 2 ^ 64) / e.size

def reserve (count : ℕ) (s : Storage α) : Option (Bool × Storage α) :=
  Storage.reserve e (allocCount e getAllocSize) hasMemory count s

def setCount (count : ℕ) (s : Storage α) : Option (Bool × Storage α) :=
  if count = s.count then some (true,s)
  else if count < s.count then
    (memset s.memory (ptrAt s.ptr count) e.zero (e.wrapped (s.count - count))).map fun memory =>
      (true,{ s with memory,count })
  else if s.maxCount < count then
    (reserve e getAllocSize hasMemory count s).map fun (result,s) =>
      if !result then (false,s) else (true,{ s with count })
  else some (true,{ s with count })

def clear (s : Storage α) : Option (Storage α) :=
  (memset s.memory (ptrAt s.ptr 0) e.zero (e.wrapped s.count)).map fun memory =>
    { s with memory,count := 0 }

/-- An assignment through a pointer that is checked. -/
def assign (index : ℕ) (value : α) (s : Storage α) : Bool × Storage α :=
  match store s.memory (ptrAt s.ptr index) [value] with
  | none => (false,s)
  | some memory => (true,{ s with memory })

def boundsCheck (index : ℕ) (s : Storage α) : Bool := index < s.count

def set (index : ℕ) (value : α) (s : Storage α) : Bool × Storage α :=
  if !boundsCheck index s then (false,s) else assign index value s

/-- What a checked assignment leaves, and the value that is returned after it. -/
def returns (result : ℕ) : Bool × Storage α → Option ℕ × Storage α
  | (ok,s) => (if ok then some result else none,s)

def copy (src : Option Ptr) (count : ℕ) (s : Storage α) : Option (Option ℕ × Storage α) :=
  (setCount e getAllocSize hasMemory count s).bind fun (result,s) =>
    if !result then some (none,s)
    else
      (memcpy s.memory (ptrAt s.ptr 0) src (e.wrapped count)).map fun memory =>
        (some count,{ s with memory })

def copyValue (value : α) (s : Storage α) : Option (Option ℕ × Storage α) :=
  (setCount e getAllocSize hasMemory 1 s).map fun (result,s) =>
    if !result then (none,s) else returns 1 (assign 0 value s)

def append (src : Option Ptr) (count : ℕ) (s : Storage α) : Option (Option ℕ × Storage α) :=
  let index := s.count
  (setCount e getAllocSize hasMemory ((s.count + count) % 2 ^ 64) s).bind fun (result,s) =>
    if !result then some (none,s)
    else
      (memcpy s.memory (ptrAt s.ptr index) src (e.wrapped count)).map fun memory =>
        (some s.count,{ s with memory })

def appendValue (value : α) (s : Storage α) : Option (Option ℕ × Storage α) :=
  let index := s.count
  (setCount e getAllocSize hasMemory ((s.count + 1) % 2 ^ 64) s).map fun (result,s) =>
    if !result then (none,s) else returns s.count (assign index value s)

def insertSpace (index count : ℕ) (s : Storage α) : Option (Option ℕ × Storage α) :=
  let newCount := (s.count + count) % 2 ^ 64
  (reserve e getAllocSize hasMemory newCount s).bind fun (result,s) =>
    if !result then some (none,s)
    else
      let dst := min index s.count
      let moved :=
        if dst < s.count then
          memmove s.memory (ptrAt s.ptr (dst + count)) (ptrAt s.ptr dst) (e.wrapped (s.count - dst))
        else some s.memory
      moved.map fun memory => (some dst,{ s with memory,count := newCount })

def insert (index : ℕ) (src : Option Ptr) (count : ℕ) (s : Storage α) :
    Option (Option ℕ × Storage α) :=
  (insertSpace e getAllocSize hasMemory index count s).bind fun
    | (none,s) => some (none,s)
    | (some dst,s) =>
        (memcpy s.memory (ptrAt s.ptr dst) src (e.wrapped count)).map fun memory =>
          (some s.count,{ s with memory })

def insertValue (index : ℕ) (value : α) (s : Storage α) : Option (Option ℕ × Storage α) :=
  (insertSpace e getAllocSize hasMemory index 1 s).map fun
    | (none,s) => (none,s)
    | (some dst,s) => returns s.count (assign dst value s)

def remove (index count : ℕ) (s : Storage α) : Option (ℕ × Storage α) :=
  Storage.remove e index count s

def detach (s : Storage α) : Storage α := { s with ptr := none,count := 0,maxCount := 0 }

/-- The fields of an array. -/
structure Fields where
  ptr : Option ℕ
  count : ℕ
  maxCount : ℕ
  deriving DecidableEq

structure State (α : Type) where
  memory : Memory α
  array : ℕ → Fields

def State.storage (s : State α) (i : ℕ) : Storage α :=
  ⟨s.memory,(s.array i).ptr,(s.array i).count,(s.array i).maxCount⟩

def State.put (s : State α) (i : ℕ) (t : Storage α) : State α where
  memory := t.memory
  array := Function.update s.array i ⟨t.ptr,t.count,t.maxCount⟩

/-- The calls on one array, with their parameters. -/
inductive Call (α : Type) where
  | set (index : ℕ) (value : α)
  | clear
  | setCount (count : ℕ)
  | reserve (count : ℕ)
  | copy (src : Option Ptr) (count : ℕ)
  | copyValue (value : α)
  | append (src : Option Ptr) (count : ℕ)
  | appendValue (value : α)
  | insert (index : ℕ) (src : Option Ptr) (count : ℕ)
  | insertValue (index : ℕ) (value : α)
  | remove (index count : ℕ)
  | detach

/-- A call, with or without memory for a new block, or the rest of the program: it may allocate and
write anything but the blocks of the arrays. -/
inductive Label (α : Type) where
  | call (i : ℕ) (call : Call α) (hasMemory : Bool)
  | takeOver (i src : ℕ)
  | other (memory : Memory α)

/-- Whether the call returns, and what it leaves. -/
def Call.run (s : Storage α) : Call α → Option (Bool × Storage α)
  | .set index value => some (Array.set index value s)
  | .clear => (Array.clear e s).map (true,·)
  | .setCount count => Array.setCount e getAllocSize hasMemory count s
  | .reserve count => Array.reserve e getAllocSize hasMemory count s
  | .copy src count =>
      (Array.copy e getAllocSize hasMemory src count s).map fun (result,s) => (result.isSome,s)
  | .copyValue value =>
      (Array.copyValue e getAllocSize hasMemory value s).map fun (result,s) => (result.isSome,s)
  | .append src count =>
      (Array.append e getAllocSize hasMemory src count s).map fun (result,s) => (result.isSome,s)
  | .appendValue value =>
      (Array.appendValue e getAllocSize hasMemory value s).map fun (result,s) =>
        (result.isSome,s)
  | .insert index src count =>
      (Array.insert e getAllocSize hasMemory index src count s).map fun (result,s) =>
        (result.isSome,s)
  | .insertValue index value =>
      (Array.insertValue e getAllocSize hasMemory index value s).map fun (result,s) =>
        (result.isSome,s)
  | .remove index count => (Array.remove e index count s).map fun (_,s) => (true,s)
  | .detach => some (true,Array.detach s)

/-- An array is not taken over by itself: the assertion fails. -/
def takeOver (s : State α) (i src : ℕ) : State α :=
  if src = i then s
  else
    let taken := s.array src
    { s with
      array := Function.update (Function.update s.array src ⟨none,0,0⟩) i taken }

/-- Nothing if memory is accessed outside the blocks. -/
def step (s : State α) : Label α → Option (State α)
  | .call i call hasMemory =>
      (call.run e getAllocSize hasMemory (s.storage i)).map fun (_,t) => s.put i t
  | .takeOver i src => some (takeOver s i src)
  | .other memory => some { s with memory }

def Call.model (s : Storage α) : Call α → List α → List α
  | .set index value,l => l.set index value
  | .clear,_ => []
  | .setCount count,l => l.take count ++ List.replicate (count - l.length) e.zero
  | .reserve _,l => l
  | .copy src count,_ => Storage.source e s src count
  | .copyValue value,_ => [value]
  | .append src count,l => l ++ Storage.source e s src count
  | .appendValue value,l => l ++ [value]
  | .insert index src count,l => l.take index ++ Storage.source e s src count ++ l.drop index
  | .insertValue index value,l => l.take index ++ [value] ++ l.drop index
  | .remove index count,l => l.take index ++ l.drop (index + count)
  | .detach,_ => []

/-- How many elements there must be room for. -/
def Call.requested (s : Storage α) : Call α → ℕ
  | .set .. | .clear | .remove .. | .detach => 0
  | .setCount count | .reserve count | .copy _ count => count
  | .copyValue _ => 1
  | .append _ count | .insert _ _ count => s.count + count
  | .appendValue _ | .insertValue .. => s.count + 1

/-- A new block is needed, and there is no memory for it, or the index is out of bounds. -/
def Call.Fails (s : Storage α) (call : Call α) (hasMemory : Bool) : Prop :=
  (s.maxCount < call.requested s ∧ hasMemory = false) ∨
    ∃ index value, call = .set index value ∧ s.count ≤ index

/-- A call that fails changes nothing; another one does what it does to a list. -/
def Follows (s : State α) (label : Label α) (s' : State α) : Prop :=
  match label with
  | .call i call hasMemory =>
      (∃ ok t, call.run e getAllocSize hasMemory (s.storage i) = some (ok,t) ∧
        (ok = false ↔ call.Fails (s.storage i) hasMemory) ∧
        (ok = false → s' = s) ∧
        (ok = true →
          (s'.storage i).content = call.model e (s.storage i) (s.storage i).content)) ∧
        ∀ j, j ≠ i → (s'.storage j).content = (s.storage j).content
  | .takeOver i src =>
      if src = i then s' = s
      else
        (s'.storage i).content = (s.storage src).content ∧ (s'.storage src).content = [] ∧
          ∀ j, j ≠ i → j ≠ src → (s'.storage j).content = (s.storage j).content
  | .other _ => ∀ j, (s'.storage j).content = (s.storage j).content

/-- The block is there and has the capacity that is told, the count does not exceed it, and the slots
behind the elements are zero. -/
structure ArrayOk (s : Storage α) : Prop extends Storage.WF e s where
  zeros : ∀ x ∈ s.block.drop s.count, x = e.zero

/-- Every array is right, and no two of them have a block in common. -/
structure Sound (s : State α) : Prop where
  array : ∀ i, ArrayOk e (s.storage i)
  apart : ∀ i j block, (s.array i).ptr = some block → (s.array j).ptr = some block → i = j

/-- The sizes of a new block do not wrap, the counts do not either, a source has as many elements as
are read, and one in the array's own block, unless that is replaced by a new one, is not written
before it is read. -/
def StepOk (s : State α) : Label α → Prop
  | .call i call hasMemory =>
      let t := s.storage i
      (hasMemory = true →
          Storage.CanReserve e (allocCount e getAllocSize) t (call.requested t)) ∧
        match call with
        | .copy src count =>
            Storage.Readable e t src count ∧ t.NotAliased count 0 (max count t.count) src count
        | .append src count => t.count + count < 2 ^ 64 ∧ Storage.Readable e t src count ∧
            t.NotAliased (t.count + count) t.count (t.count + count) src count
        | .insert index src count => t.count + count < 2 ^ 64 ∧ Storage.Readable e t src count ∧
            t.NotAliased (t.count + count) (min index t.count) (t.count + count) src count
        | _ => True
  | .takeOver .. => True
  | .other memory => s.memory.length ≤ memory.length ∧
      ∀ i, blockAt memory (s.array i).ptr = (s.storage i).block

end Jancy.Stdt.Array
