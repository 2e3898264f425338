import Jancy.Lib.RedBlack
import Jancy.Lib.Run
import Jancy.Stdt.BinTree

/-! `stdt.RbTree`: a binary tree that is rebalanced after each insertion and removal. -/
namespace Jancy.Stdt

abbrev RbTreeColor := RedBlack.Color

abbrev RbNodes := TreeNodes RbTreeColor

abbrev RbHeap (K V : Type) := TreeHeap K V RbTreeColor

namespace RbNodes

open TreeNodes

variable (h : RbNodes)

def getColor (p : Option EntryId) : RbTreeColor :=
  match p with
  | none => .black
  | some p => h.mark p

/-- The number of black nodes on the way down; `none` is an assertion that failed. -/
def assertValid : ℕ → Option EntryId → Option ℕ
  | _,none => some 1
  | 0,some _ => none
  | fuel + 1,some p => do
      let leftCount ← assertValid fuel (h.child .left p)
      let rightCount ← assertValid fuel (h.child .right p)
      guard (leftCount = rightCount)
      if h.mark p = .black then return leftCount + 1
      guard (getColor h (h.child .left p) = .black)
      guard (getColor h (h.child .right p) = .black)
      return leftCount

/-- `assert(assertValid(m_root))` -/
def checked (fuel : ℕ) (t : TableId) : Option RbNodes := do
  let count ← assertValid h fuel (h.root t)
  guard (count ≠ 0)
  return h

/-- The side of the link that leads to a child. -/
def sideOf (p : EntryId) (x : Option EntryId) : Side :=
  if x = h.child .left p then .left else .right

/-- A new node on the inner side changes places with its parent. -/
def straighten (s : Side) (t : TableId) (x p : EntryId) : Option (RbNodes × EntryId) :=
  if h.child s.other p = some x then (rotate h s t p).map (·,p) else some (h,x)

/-- Recolor and rotate, below an uncle that is black. -/
def rotateUp (s : Side) (t : TableId) (x p : EntryId) : Option (RbNodes × EntryId) := do
  let (h,x) ← straighten h s t x p
  let p ← h.parent x
  let h := h.setMark p .black
  let g ← h.parent p
  let h := h.setMark g .red
  let h ← rotate h s.other t g
  return (h,x)

def insertLoop (t : TableId) : ℕ → RbNodes → EntryId → Option RbNodes
  | 0,_,_ => none
  | fuel + 1,h,x =>
      if h.root t = some x then some h
      else do
        let p ← h.parent x
        if h.mark p = .black then some h
        else do
          let g ← h.parent p
          let s := sideOf h g (some p)
          let y := h.child s.other g
          if getColor h y = .red then do
            let y ← y
            insertLoop t fuel (((h.setMark p .black).setMark y .black).setMark g .red) g
          else do
            let (h,x) ← rotateUp h s t x p
            insertLoop t fuel h x

def rebalanceOnInsert (fuel : ℕ) (t : TableId) (x : EntryId) : Option RbNodes := do
  let h ← insertLoop t fuel (h.setMark x .red) x
  let root ← h.root t
  checked (h.setMark root .black) fuel t

def blackSibling (s : Side) (t : TableId) (p : EntryId) : Option (RbNodes × EntryId) := do
  let w ← h.child s.other p
  if h.mark w = .red then do
    let h ← rotate ((h.setMark w .black).setMark p .red) s t p
    let w ← h.child s.other p
    return (h,w)
  else return (h,w)

def redFarChild (s : Side) (t : TableId) (p w : EntryId) : Option (RbNodes × EntryId) :=
  if getColor h (h.child s.other w) = .black then do
    let near ← h.child s w
    let h ← rotate ((h.setMark near .black).setMark w .red) s.other t w
    let w ← h.child s.other p
    return (h,w)
  else some (h,w)

def rotateSibling (s : Side) (t : TableId) (p w : EntryId) : Option RbNodes := do
  let (h,w) ← redFarChild h s t p w
  let h := h.setMark w (h.mark p)
  let h := h.setMark p .black
  let far ← h.child s.other w
  let h := h.setMark far .black
  rotate h s t p

def removeLoop (t : TableId) :
    ℕ → RbNodes → Option EntryId → Option EntryId → Option (RbNodes × Option EntryId)
  | 0,_,_,_ => none
  | fuel + 1,h,p,x =>
      if x = h.root t ∨ getColor h x = .red then some (h,x)
      else do
        let p ← p
        let s := sideOf h p x
        let (h,w) ← blackSibling h s t p
        if getColor h (h.child .left w) = .black ∧ getColor h (h.child .right w) = .black then
          let h := h.setMark w .red
          removeLoop t fuel h (h.parent p) (some p)
        else do
          let h ← rotateSibling h s t p w
          let x ← h.root t
          removeLoop t fuel h (h.parent x) (some x)

def rebalanceOnRemove (fuel : ℕ) (t : TableId) (p : EntryId) (x : Option EntryId) :
    Option RbNodes := do
  if h.mark p = .red then return h
  let (h,x) ← removeLoop t fuel h (h.parent p) x
  let h := match x with
    | none => h
    | some x => h.setMark x .black
  checked h fuel t

end RbNodes

namespace RbHeap

variable {K V : Type}

def initial [Inhabited K] [Inhabited V] (cmp : TableId → K → K → Bool) : RbHeap K V where
  lists := .empty
  nodes :=
    { child _ _ := none
      parent _ := none
      mark _ := .black
      root _ := none }
  key _ := default
  value _ := default
  cmp := cmp
  allocated := 0

variable (h : RbHeap K V)

/-- `new Entry(key, parent)`: a root is black. -/
def newEntry [Inhabited V] (key : K) (parent : Option EntryId) : RbHeap K V :=
  { h with
    nodes := (TreeNodes.setLinks h.nodes h.allocated none none parent).setMark h.allocated .black
    key := Function.update h.key h.allocated key
    value := Function.update h.value h.allocated default
    allocated := h.allocated + 1 }

/-- The new entry becomes a child of `p` and goes in front of it or behind it. -/
def insertBelow [Inhabited V] (t : TableId) (key : K) (p : EntryId) (s : Side) : RbHeap K V :=
  let child := h.allocated
  let h := newEntry h key (some p)
  { h with
    nodes := h.nodes.setChild s p (some child)
    lists := match s with
      | .left => h.lists.insertBetween t (h.lists.prev p) (some p) child
      | .right => h.lists.insertBetween t (some p) (h.lists.next p) child }

def insertRoot [Inhabited V] (t : TableId) (key : K) : RbHeap K V :=
  let p := h.allocated
  let h := newEntry h key none
  { h with
    nodes := h.nodes.setRoot t (some p)
    lists := h.lists.insertBetween t (h.lists.tail t) none p }

def visit [Inhabited V] (t : TableId) (key : K) : Option (RbHeap K V × EntryId) :=
  match h.nodes.root t with
  | none => some (insertRoot h t key,h.allocated)
  | some root => do
      match ← h.descend t key h.allocated root with
      | .found p => return (h,p)
      | .below p s =>
          let child := h.allocated
          let h := insertBelow h t key p s
          let nodes ← RbNodes.rebalanceOnInsert h.nodes h.allocated t child
          return ({ h with nodes := nodes },child)

def remove (t : TableId) (p : EntryId) : Option (RbHeap K V) := do
  let (h,child) ← h.replaceWithChild t p
  let nodes ← RbNodes.rebalanceOnRemove h.nodes h.allocated t p child
  return { h with nodes := nodes }

def clear (t : TableId) : RbHeap K V :=
  { h with lists := h.lists.clear t,nodes := h.nodes.setRoot t none }

/-- `m_cmp` is not moved. -/
def takeOver (t src : TableId) : RbHeap K V :=
  { h with
    lists := h.lists.takeOver t src
    nodes := (h.nodes.setRoot t (h.nodes.root src)).setRoot src none }

/-- The assertion of `List.takeOver` is the only one that may fail, if it is compiled. -/
def call [Inhabited V] (asserts : Bool) : DictCall K V → Option (RbHeap K V × DictResult)
  | .visit t key => (visit h t key).map fun r => (r.1,.entry (some r.2))
  | .find t key => (h.find t key).map fun e => (h,.entry e)
  | .store e value => some ({ h with value := Function.update h.value e value },.void)
  | .remove t e => (remove h t e).map (·,.void)
  | .removeKey t key => do
      match ← h.find t key with
      | none => return (h,.bool false)
      | some e =>
          let h ← remove h t e
          return (h,.bool true)
  | .clear t => some (clear h t,.void)
  | .takeOver t src =>
      if asserts && src == t then some (h,.thrown) else some (takeOver h t src,.void)

def step [Inhabited V] (asserts : Bool) (c : DictCall K V) : Option (RbHeap K V) :=
  (call h asserts c).map Prod.fst

end RbHeap

end Jancy.Stdt
