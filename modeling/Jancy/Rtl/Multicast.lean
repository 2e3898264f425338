import Jancy.Lib.HandleTable
import Jancy.Lib.Run

/-! `MulticastImpl`: the pointer array, the count and the handle table, and the bodies that change
them. The handle table and the growth of arrays come from outside and are parameters. -/
namespace Jancy.Rtl

/-- What a class pointer can point to, as far as `strengthenClassPtr` can tell: an object, or a
closure with or without a weakly held `this` argument. -/
inductive IfaceHdr where
  | null
  | object (box : ℕ)
  | closure
  | closureOf (thisArg : IfaceHdr)
  deriving DecidableEq, Repr

/-- `jnc_strengthenClassPtr` with `ClosureClassType::strengthen`. `dead` lists the boxes without a
class mark and those that are being destructed. -/
def strengthenClassPtr (dead : List ℕ) : IfaceHdr → IfaceHdr
  | .null => .null
  | .object box => if box ∈ dead then .null else .object box
  | .closure => .closure
  | .closureOf thisArg =>
      if strengthenClassPtr dead thisArg = .null then .null else .closureOf thisArg

structure FunctionPtr where
  p : ℕ
  closure : IfaceHdr
  deriving DecidableEq, Repr

inductive FunctionPtrKind where
  | normal | weak | thin
  deriving DecidableEq, Repr

/-- What the templates of `MulticastImpl` need to know of their pointer type. -/
class HandlerPtr (T : Type) where
  zero : T
  code : T → ℕ
  closure : T → IfaceHdr

instance : HandlerPtr FunctionPtr := ⟨⟨0,.null⟩,FunctionPtr.p,FunctionPtr.closure⟩

/-- The thin pointers of `setHandler_t` and `addHandler_t`. -/
abbrev CodePtr := ℕ

instance : HandlerPtr CodePtr := ⟨0,id,fun _ => .null⟩

/-- `ptr` holds the `m_maxCount` slots of the allocated array. -/
structure Multicast (T : Type) (H : HandleTable ℕ) where
  ptr : List T
  count : ℕ
  handleTable : Option H.Table

def memmove {T : Type} (l : List T) (dst src n : ℕ) : List T :=
  l.take dst ++ (l.drop src).take n ++ l.drop (dst + n)

namespace Multicast

variable {T : Type} [HandlerPtr T] {H : HandleTable ℕ}

def initial : Multicast T H := ⟨[],0,none⟩

def maxCount (m : Multicast T H) : ℕ := m.ptr.length

def getHandleTable (m : Multicast T H) : H.Table := m.handleTable.getD H.new

def clear (m : Multicast T H) : Multicast T H :=
  { m with handleTable := m.handleTable.map H.clear, count := 0 }

def setCount (getAllocSize : ℕ → ℕ) (m : Multicast T H) (count : ℕ) : Multicast T H :=
  if count ≤ m.maxCount then { m with count }
  else
    { m with
      ptr := m.ptr.take m.count ++
        List.replicate (getAllocSize count - (m.ptr.take m.count).length) HandlerPtr.zero
      count }

def setHandlerImpl (getAllocSize : ℕ → ℕ) (m : Multicast T H) (p : T) :
    Handle × Multicast T H :=
  let m := m.setCount getAllocSize 1
  let (handle,handleTable) := H.add (H.clear m.getHandleTable) 0
  (handle,{ m with ptr := m.ptr.set 0 p, handleTable := some handleTable })

def addHandlerImpl (getAllocSize : ℕ → ℕ) (m : Multicast T H) (p : T) :
    Handle × Multicast T H :=
  let i := m.count
  let m := m.setCount getAllocSize (i + 1)
  let (handle,handleTable) := H.add m.getHandleTable i
  (handle,{ m with ptr := m.ptr.set i p, handleTable := some handleTable })

/-- A null pointer clears the multicast; the handle returned is then `NULL`. -/
def setHandler (getAllocSize : ℕ → ℕ) (m : Multicast T H) (p : T) : Handle × Multicast T H :=
  if HandlerPtr.code p ≠ 0 then m.setHandlerImpl getAllocSize p else (0,m.clear)

def addHandler (getAllocSize : ℕ → ℕ) (m : Multicast T H) (p : T) : Handle × Multicast T H :=
  if HandlerPtr.code p ≠ 0 then m.addHandlerImpl getAllocSize p else (0,m)

/-- The handler under `handle`, a zero pointer if there is none, and the multicast without it. -/
def removeHandlerImpl (m : Multicast T H) (handle : Handle) : T × Multicast T H :=
  match m.handleTable with
  | none => (HandlerPtr.zero,m)
  | some handleTable =>
      match H.find handleTable handle with
      | none => (HandlerPtr.zero,m)
      | some i =>
          let p := m.ptr.getD i HandlerPtr.zero
          let ptr := memmove m.ptr i (i + 1) (m.count - i - 1)
          let count := m.count - 1
          (p,
            { ptr := ptr.set count HandlerPtr.zero
              count
              -- the indices that follow are adjusted, then the entry itself goes
              handleTable := some (H.erase (H.mapFollowing handleTable handle (· - 1)) handle) })

/-- The handlers of the snapshot. Of a weak multicast only those are taken, and kept, whose
closure can be strengthened. -/
def getSnapshot (kind : FunctionPtrKind) (dead : List ℕ) (m : Multicast T H) :
    List T × Multicast T H :=
  if m.count = 0 then ([],m)
  else if kind ≠ .weak then (m.ptr.take m.count,m)
  else
    let alive := (m.ptr.take m.count).filter fun p =>
      decide (strengthenClassPtr dead (HandlerPtr.closure p) ≠ .null)
    if alive.length ≠ m.count then
      (alive,
        { m with
          ptr := alive ++ List.replicate (m.count - alive.length) HandlerPtr.zero ++
            m.ptr.drop m.count
          count := alive.length })
    else (alive,m)

/-- The handlers in the array. -/
def items (m : Multicast T H) : List T := m.ptr.take m.count

def table (m : Multicast T H) : List (Handle × ℕ) := H.entries m.getHandleTable

end Multicast

/-- What an operation returns to its caller. -/
inductive Output (T : Type) where
  | none
  | handle (h : Handle)
  | removed (p : T)
  | snapshot (handlers : List T)

inductive MulticastAction (T : Type) where
  | setHandler (p : T)
  | addHandler (p : T)
  | removeHandler (h : Handle)
  | clear
  | getSnapshot
  | call
  | die (box : ℕ)

/-- The last two fields are not part of the program: `registered` lists what was added, with the
handle that was returned for it, and not removed since; `returned` lists all those handles. -/
structure MulticastSystem (T : Type) (H : HandleTable ℕ) where
  multicast : Multicast T H
  dead : List ℕ
  registered : List (Handle × T)
  returned : List Handle

/-- The bookkeeping that the caller of a multicast does. -/
def register {T : Type} [HandlerPtr T] (registered : List (Handle × T)) :
    MulticastAction T → Output T → List (Handle × T)
  | .setHandler p, .handle h => if HandlerPtr.code p ≠ 0 then [(h,p)] else []
  | .addHandler p, .handle h =>
      if HandlerPtr.code p ≠ 0 then registered ++ [(h,p)] else registered
  | .removeHandler h, _ => HandleTable.eraseHandle h registered
  | .clear, _ => []
  | _, _ => registered

def noteReturned {T : Type} [HandlerPtr T] (returned : List Handle) :
    MulticastAction T → Output T → List Handle
  | .setHandler p, .handle h | .addHandler p, .handle h =>
      if HandlerPtr.code p ≠ 0 then h :: returned else returned
  | _, _ => returned

namespace MulticastSystem

variable {T : Type} [HandlerPtr T] {H : HandleTable ℕ}

def initial : MulticastSystem T H := ⟨.initial,[],[],[]⟩

/-- `call` invokes the handlers of a snapshot in their order. -/
def perform (getAllocSize : ℕ → ℕ) (kind : FunctionPtrKind) (s : MulticastSystem T H) :
    MulticastAction T → Output T × MulticastSystem T H
  | .setHandler p =>
      let (h,m) := s.multicast.setHandler getAllocSize p
      (.handle h,{ s with multicast := m })
  | .addHandler p =>
      let (h,m) := s.multicast.addHandler getAllocSize p
      (.handle h,{ s with multicast := m })
  | .removeHandler h =>
      let (p,m) := s.multicast.removeHandlerImpl h
      (.removed p,{ s with multicast := m })
  | .clear => (.none,{ s with multicast := s.multicast.clear })
  | .getSnapshot | .call =>
      let (handlers,m) := s.multicast.getSnapshot kind s.dead
      (.snapshot handlers,{ s with multicast := m })
  | .die box => (.none,{ s with dead := box :: s.dead })

def next (getAllocSize : ℕ → ℕ) (kind : FunctionPtrKind) (s : MulticastSystem T H)
    (a : MulticastAction T) : MulticastSystem T H :=
  let (out,s') := s.perform getAllocSize kind a
  { s' with
    registered := register s.registered a out
    returned := noteReturned s.returned a out }

def step (getAllocSize : ℕ → ℕ) (kind : FunctionPtrKind) (s : MulticastSystem T H)
    (a : MulticastAction T) : Option (MulticastSystem T H) :=
  some (s.next getAllocSize kind a)

end MulticastSystem
end Jancy.Rtl
