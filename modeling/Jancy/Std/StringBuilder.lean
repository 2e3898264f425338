import Jancy.Std.Array
import Mathlib.Data.List.DropRight

/-! String builders: a buffer with a zero behind the string. -/
namespace Jancy.Std.StringBuilder

open Blocks (Memory Ptr load store memmove memcpy ptrAt blockAt)
open Storage (CanReserve NotAliased)

variable {α : Type} (getAllocSize : ℕ → ℕ) (hasMemory : Bool) (zero : α) (isWhitespace : α → Bool)

/-- `count` is `m_length`, and `maxCount` is `m_bufferSize`. -/
abbrev Builder (α : Type) := Storage α

def chars : Elements α where
  size := 1
  zero := zero
  acceptsNull := false
  clearsRemoved := false

/-- A zero behind the string, which then has that length. -/
def terminate (length : ℕ) (s : Builder α) : Option (Builder α) :=
  (store s.memory (ptrAt s.ptr length) [zero]).map fun memory =>
    { s with memory,count := length }

def clear (s : Builder α) : Option (Builder α) :=
  if s.count = 0 then some s else terminate zero 0 s

/-- There is room for the zero. -/
def reserve (length : ℕ) (s : Builder α) : Option (Bool × Builder α) :=
  if length < s.maxCount then some (true,s)
  else
    let bufferSize := getAllocSize ((length + 1) % 2 ^ 64)
    ((chars zero).tryAllocateArray hasMemory bufferSize).bind fun
      | none => some (false,s)
      | some block =>
          let ptr := some s.memory.length
          (memcpy (s.memory ++ [block]) (ptrAt ptr 0) (ptrAt s.ptr 0)
              ((chars zero).wrapped s.count)).map
            fun memory => (true,⟨memory,ptr,s.count,bufferSize⟩)

def copyImpl (p : Option Ptr) (length : ℕ) (s : Builder α) : Option (Option ℕ × Builder α) :=
  (reserve getAllocSize hasMemory zero length s).bind fun (result,s) =>
    if !result then some (none,s)
    else
      (memcpy s.memory (ptrAt s.ptr 0) p length).bind fun memory =>
        (terminate zero length { s with memory }).map fun s => (some length,s)

def insertImpl (offset : ℕ) (src : Option Ptr) (length : ℕ) (s : Builder α) :
    Option (Option ℕ × Builder α) :=
  let newLength := (s.count + length) % 2 ^ 64
  (reserve getAllocSize hasMemory zero newLength s).bind fun (result,s) =>
    if !result then some (none,s)
    else
      let offset := min offset s.count
      let moved :=
        if offset < s.count then
          memmove s.memory (ptrAt s.ptr (offset + length)) (ptrAt s.ptr offset)
            ((chars zero).wrapped (s.count - offset))
        else some s.memory
      moved.bind fun memory =>
        (memcpy memory (ptrAt s.ptr offset) src length).bind fun memory =>
          (terminate zero newLength { s with memory }).map fun s => (some newLength,s)

/-- A string that was converted is in a buffer on the stack. -/
def onStack (string : List α) (s : Builder α) : Builder α :=
  { s with memory := s.memory ++ [string] }

def remove (offset length : ℕ) (s : Builder α) : Option (ℕ × Builder α) :=
  if s.count ≤ offset then some (s.count,s)
  else
    let length := min length (s.count - offset)
    if length = 0 then some (s.count,s)
    else
      let newLength := s.count - length
      let tailIdx := offset + length
      (memmove s.memory (ptrAt s.ptr offset) (ptrAt s.ptr tailIdx)
          ((chars zero).wrapped (s.count - tailIdx))).bind fun memory =>
        (terminate zero newLength { s with memory }).map fun s => (newLength,s)

def chop (length : ℕ) (s : Builder α) : Option (ℕ × Builder α) :=
  if s.count ≤ length then (clear zero s).map fun s => (0,s)
  else (terminate zero (s.count - length) s).map fun s => (s.count,s)

def trimLeft (s : Builder α) : Option (ℕ × Builder α) :=
  match s.content.findIdx? (!isWhitespace ·) with
  | none => (clear zero s).map fun s => (0,s)
  | some i => remove zero 0 i s

/-- The last character that is not a blank is looked for from the end. -/
def trimRight (s : Builder α) : Option (ℕ × Builder α) :=
  match s.content.reverse.findIdx? (!isWhitespace ·) with
  | none => (clear zero s).map fun s => (0,s)
  | some i => (terminate zero (s.count - i) s).map fun s => (s.count,s)

def trim (s : Builder α) : Option (ℕ × Builder α) :=
  (trimLeft zero isWhitespace s).bind fun (_,s) => trimRight zero isWhitespace s

/-- `copy_0` and `insert_0` have a string in memory; the others convert one first. Appending is
inserting at −1. -/
inductive BuilderOp (α : Type) where
  | clear
  | reserve (length : ℕ)
  | copy (src : Option Ptr) (length : ℕ)
  | copyConverted (string : List α)
  | insert (offset : ℕ) (src : Option Ptr) (length : ℕ)
  | insertConverted (offset : ℕ) (string : List α)
  | append (src : Option Ptr) (length : ℕ)
  | appendConverted (string : List α)
  | remove (offset length : ℕ)
  | chop (length : ℕ)
  | trimLeft
  | trimRight
  | trim

inductive BuilderLabel (α : Type) where
  | op (op : BuilderOp α) (hasMemory : Bool)
  | other (memory : Memory α)

/-- Nothing if the behaviour is undefined. -/
def step (s : Builder α) : BuilderLabel α → Option (Builder α)
  | .op .clear _ => clear zero s
  | .op (.reserve length) hasMemory =>
      (reserve getAllocSize hasMemory zero length s).map Prod.snd
  | .op (.copy src length) hasMemory =>
      (copyImpl getAllocSize hasMemory zero src length s).map Prod.snd
  | .op (.copyConverted string) hasMemory =>
      (copyImpl getAllocSize hasMemory zero (some ⟨s.memory.length,0⟩) string.length
        (onStack string s)).map Prod.snd
  | .op (.insert offset src length) hasMemory =>
      (insertImpl getAllocSize hasMemory zero offset src length s).map Prod.snd
  | .op (.insertConverted offset string) hasMemory =>
      (insertImpl getAllocSize hasMemory zero offset (some ⟨s.memory.length,0⟩) string.length
        (onStack string s)).map Prod.snd
  | .op (.append src length) hasMemory =>
      (insertImpl getAllocSize hasMemory zero (2 ^ 64 - 1) src length s).map Prod.snd
  | .op (.appendConverted string) hasMemory =>
      (insertImpl getAllocSize hasMemory zero (2 ^ 64 - 1) (some ⟨s.memory.length,0⟩) string.length
        (onStack string s)).map Prod.snd
  | .op (.remove offset length) _ => (remove zero offset length s).map Prod.snd
  | .op (.chop length) _ => (chop zero length s).map Prod.snd
  | .op .trimLeft _ => (trimLeft zero isWhitespace s).map Prod.snd
  | .op .trimRight _ => (trimRight zero isWhitespace s).map Prod.snd
  | .op .trim _ => (trim zero isWhitespace s).map Prod.snd
  | .other memory => some { s with memory }

/-- A buffer has room for a zero behind the string, and the zero is there. -/
def Terminated (s : Builder α) : Prop :=
  s.maxCount ≠ 0 → s.count < s.maxCount ∧ s.block[s.count]? = some zero

def source (s : Builder α) (src : Option Ptr) (length : ℕ) : List α :=
  (load s.memory src length).getD []

def model (s : Builder α) : BuilderOp α → List α → List α
  | .clear,_ => []
  | .reserve _,l => l
  | .copy src length,_ => source s src length
  | .copyConverted string,_ => string
  | .insert offset src length,l => l.take offset ++ source s src length ++ l.drop offset
  | .insertConverted offset string,l => l.take offset ++ string ++ l.drop offset
  | .append src length,l => l ++ source s src length
  | .appendConverted string,l => l ++ string
  | .remove offset length,l => l.take offset ++ l.drop (offset + length)
  | .chop length,l => l.take (l.length - length)
  | .trimLeft,l => l.dropWhile isWhitespace
  | .trimRight,l => l.rdropWhile isWhitespace
  | .trim,l => (l.dropWhile isWhitespace).rdropWhile isWhitespace

/-- The length that there must be room for, if there must be. -/
def requested (s : Builder α) : BuilderOp α → Option ℕ
  | .reserve length | .copy _ length => some length
  | .copyConverted string => some string.length
  | .insert _ _ length | .append _ length => some (s.count + length)
  | .insertConverted _ string | .appendConverted string => some (s.count + string.length)
  | .clear | .remove _ _ | .chop _ | .trimLeft | .trimRight | .trim => none

def Fails (s : Builder α) (op : BuilderOp α) (hasMemory : Bool) : Prop :=
  (∃ length ∈ requested s op, s.maxCount ≤ length) ∧ hasMemory = false

/-- The string is the one of the list model, and it is terminated. -/
def Follows (s : Builder α) (label : BuilderLabel α) (s' : Builder α) : Prop :=
  Terminated zero s' ∧
    match label with
    | .op op hasMemory =>
        (Fails s op hasMemory → s'.content = s.content) ∧
          (¬Fails s op hasMemory → s'.content = model isWhitespace s op s.content)
    | .other _ => s'.content = s.content

/-- As for buffers; nothing that is removed or cut off comes into sight again. -/
def StepOk (s : Builder α) : BuilderLabel α → Prop
  | .op op hasMemory =>
      (∀ length ∈ requested s op,length + 1 < 2 ^ 64 ∧
        (hasMemory = true → CanReserve (chars zero) getAllocSize s (length + 1))) ∧
      match op with
      | .copy src length => (load s.memory src length).isSome = true ∧
          s.NotAliased (length + 1) 0 length src length
      | .insert offset src length => (load s.memory src length).isSome = true ∧
          s.NotAliased (s.count + length + 1) (min offset s.count) (s.count + length) src length
      | .append src length => (load s.memory src length).isSome = true ∧
          s.NotAliased (s.count + length + 1) s.count (s.count + length) src length
      | _ => True
  | .other memory => s.memory.length ≤ memory.length ∧ blockAt memory s.ptr = s.block

end Jancy.Std.StringBuilder
