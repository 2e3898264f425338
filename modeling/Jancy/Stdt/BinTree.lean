import Jancy.Lib.LinkedLists
import Jancy.Lib.LinkedTrees
import Jancy.Stdt.Dictionary

/-! `stdt.BinTree`: entries are on the list of their tree and are the nodes of it. -/
namespace Jancy.Stdt

/-- The objects of a program. -/
structure TreeHeap (K V P : Type) where
  lists : LinkedLists TableId EntryId
  nodes : LinkedTrees TableId EntryId P
  key : EntryId → K
  value : EntryId → V
  cmp : TableId → K → K → Bool
  allocated : ℕ

section Nodes

variable {P : Type}

abbrev TreeNodes (P : Type) := LinkedTrees TableId EntryId P

namespace TreeNodes

variable (h : TreeNodes P)

/-- Turn a node and the child on the far side around; `none` is an assertion that failed. -/
def rotate (s : Side) (t : TableId) (x : EntryId) : Option (TreeNodes P) := do
  let y ← h.child s.other x
  let h := h.setChild s.other x (h.child s y)
  let h := h.setParentOf (h.child s y) (some x)
  let h := h.setParent y (h.parent x)
  let h := h.relink s t (h.parent x) x (some y)
  let h := h.setChild s y (some x)
  return h.setParent x (some y)

def rotateLeft (t : TableId) (x : EntryId) : Option (TreeNodes P) := rotate h .left t x

def rotateRight (t : TableId) (x : EntryId) : Option (TreeNodes P) := rotate h .right t x

/-- Follow one kind of link to its end. -/
def outermost (s : Side) : ℕ → EntryId → Option EntryId
  | 0,_ => none
  | fuel + 1,p =>
      match h.child s p with
      | none => some p
      | some q => outermost s fuel q

def getLeftmostChild (fuel : ℕ) (p : EntryId) : Option EntryId := outermost h .left fuel p

def getRightmostChild (fuel : ℕ) (p : EntryId) : Option EntryId := outermost h .right fuel p

def setLinks (p : EntryId) (left right parent : Option EntryId) : TreeNodes P :=
  ((h.setChild .left p left).setChild .right p right).setParent p parent

/-- The links of the two nodes themselves, with the cases where one is the child of the other. -/
def exchangeLinks (prev next : EntryId) : TreeNodes P :=
  let oldParent := h.parent prev
  let oldLeft := h.child .left prev
  let oldRight := h.child .right prev
  if h.child .left next = some prev then
    (setLinks h prev (some next) (h.child .right next) (h.parent next)).setLinks next oldLeft
      oldRight (some prev)
  else if h.child .right prev = some next then
    (setLinks h prev (h.child .left next) (h.child .right next) (some next)).setLinks next oldLeft
      (some prev) oldParent
  else
    (setLinks h prev (h.child .left next) (h.child .right next) (h.parent next)).setLinks next
      oldLeft oldRight oldParent

/-- The node takes the place of another one below its new parent. -/
def fixupParent (t : TableId) (p old : EntryId) : TreeNodes P :=
  h.relink .left t (h.parent p) old (some p)

def fixupChildren (p : EntryId) : TreeNodes P :=
  (h.setParentOf (h.child .left p) (some p)).setParentOf (h.child .right p) (some p)

def exchangeParams (prev next : EntryId) : TreeNodes P :=
  (h.setMark prev (h.mark next)).setMark next (h.mark prev)

def exchange (t : TableId) (prev next : EntryId) : Option (TreeNodes P) := do
  guard (h.child .right next ≠ some prev)
  guard (h.child .left prev ≠ some next)
  let h := exchangeLinks h prev next
  let h := fixupParent h t prev next
  let h := fixupParent h t next prev
  let h := fixupChildren h prev
  let h := fixupChildren h next
  return exchangeParams h prev next

def onlyChild (p : EntryId) : Option EntryId :=
  if (h.child .right p).isSome then h.child .right p else h.child .left p

/-- The link to a node leads to its child; `none` is an assertion that failed. -/
def replaceLink (t : TableId) (p : EntryId) (child : Option EntryId) : Option (TreeNodes P) :=
  match h.parent p with
  | none => if h.root t = some p then some (h.setRoot t child) else none
  | some q =>
      if h.child .left q = some p then some (h.setChild .left q child)
      else if h.child .right q = some p then some (h.setChild .right q child)
      else none

/-- Put the child in the place of a node that has no other. -/
def unlinkNode (t : TableId) (p : EntryId) : Option (TreeNodes P) := do
  let child := onlyChild h p
  let h ← replaceLink h t p child
  return h.setParentOf child (h.parent p)

end TreeNodes

end Nodes

/-- Where a key is, or the missing child where it would go. -/
inductive Spot where
  | found (p : EntryId)
  | below (p : EntryId) (s : Side)
  deriving DecidableEq, Repr

namespace TreeHeap

variable {K V P : Type} (h : TreeHeap K V P)

/-- What a loop over the list visits. -/
def entriesOf (t : TableId) : List EntryId :=
  (h.lists.links t).walk h.allocated (h.lists.head t)

/-- The way down that `find` and `visit` have in common. -/
def descend (t : TableId) (key : K) : ℕ → EntryId → Option Spot
  | 0,_ => none
  | fuel + 1,p =>
      if h.cmp t key (h.key p) then
        match h.nodes.child .left p with
        | some q => descend t key fuel q
        | none => some (.below p .left)
      else if h.cmp t (h.key p) key then
        match h.nodes.child .right p with
        | some q => descend t key fuel q
        | none => some (.below p .right)
      else some (.found p)

def find (t : TableId) (key : K) : Option (Option EntryId) :=
  match h.nodes.root t with
  | none => some none
  | some p => do
      match ← h.descend t key h.allocated p with
      | .found p => return some p
      | .below _ _ => return none

def exchangeNext (t : TableId) (p : EntryId) : Option (TreeNodes P) :=
  match h.nodes.child .left p,h.nodes.child .right p with
  | some l,some r => do
      guard (h.lists.next p = TreeNodes.getLeftmostChild h.nodes h.allocated r)
      guard (h.lists.prev p = TreeNodes.getRightmostChild h.nodes h.allocated l)
      let next ← h.lists.next p
      let nodes ← TreeNodes.exchange h.nodes t p next
      guard (nodes.child .left p = none)
      return nodes
  | _,_ => some h.nodes

def replaceWithChild (t : TableId) (p : EntryId) : Option (TreeHeap K V P × Option EntryId) := do
  let nodes ← h.exchangeNext t p
  let child := TreeNodes.onlyChild nodes p
  let nodes ← TreeNodes.unlinkNode nodes t p
  return ({ h with nodes := nodes,lists := h.lists.remove t p },child)

end TreeHeap

end Jancy.Stdt
