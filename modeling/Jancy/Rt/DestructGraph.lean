import Mathlib.Logic.Relation
import Mathlib.Data.List.Basic
import Mathlib.Algebra.Group.Nat.Defs

/-! The graph that puts the destructible boxes of a collection in order, `rt::DestructGraph`. The
counting sort of the edges, `sl::countSort`, is not part of the repository and a parameter. -/
namespace Jancy.Rt

structure Edge where
  srcIdx : ℕ
  dstIdx : ℕ
  deriving DecidableEq, Repr

structure TarjanDfsFrame where
  nodeIdx : ℕ
  edgeIdx : ℕ
  edgeEndIdx : ℕ
  deriving DecidableEq, Repr

structure DestructGraph (Box : Type) where
  nodeArray : List Box
  unsortedEdgeArray : List Edge
  sortedEdgeArray : List Edge
  edgeBaseArray : List ℕ
  destructCount : ℕ

/-- The fields of the nodes, and the stacks with their top first. -/
structure TarjanState where
  tarjanIdx : ℕ → Option ℕ
  tarjanLowlinkIdx : ℕ → ℕ
  tarjanSccIdx : ℕ → Option ℕ
  dfsCounter : ℕ
  tarjanStack : List ℕ
  tarjanDfsStack : List TarjanDfsFrame
  tarjanSccNodeArray : List ℕ
  tarjanSccBaseArray : List ℕ

namespace DestructGraph

variable {Box : Type}

section Build

variable [DecidableEq Box]

/-- The node of a box, which has its index or is in the map once it has a node. -/
def getNode (g : DestructGraph Box) (box : Box) : ℕ × DestructGraph Box :=
  if box ∈ g.nodeArray then (g.nodeArray.idxOf box,g)
  else (g.nodeArray.length,{ g with nodeArray := g.nodeArray ++ [box] })

def addEdge (g : DestructGraph Box) (parent : ℕ) (box : Box) : DestructGraph Box :=
  let (node,g) := g.getNode box
  if parent ≠ node then
    { g with unsortedEdgeArray := g.unsortedEdgeArray ++ [⟨parent,node⟩] }
  else g

/-- The nodes of the candidates, before the mark cycle. -/
def start (destructArray : List Box) : DestructGraph Box :=
  ⟨destructArray,[],[],[],destructArray.length⟩

/-- What a mark cycle does with the graph: every strong reference that it comes across is an edge
from a node that is there. -/
inductive Marked : DestructGraph Box → DestructGraph Box → Prop
  | refl (g : DestructGraph Box) : Marked g g
  | addEdge {g g' : DestructGraph Box} (h : Marked g g') {parent : ℕ}
      (hparent : parent < g'.nodeArray.length) (box : Box) : Marked g (g'.addEdge parent box)

end Build

/-- The end of `build`: the edges by their source, and where those of a node begin. -/
def sortEdges (countSort : List Edge → ℕ → List Edge × List ℕ) (g : DestructGraph Box) :
    DestructGraph Box :=
  let nodeCount := g.nodeArray.length
  let edgeCount := g.unsortedEdgeArray.length
  let (sortedEdgeArray,edgeBaseArray) := countSort g.unsortedEdgeArray (nodeCount - 1)
  { g with
    sortedEdgeArray
    edgeBaseArray := edgeBaseArray ++ [edgeCount] }

def edgeBase (g : DestructGraph Box) (nodeIdx : ℕ) : ℕ := g.edgeBaseArray.getD nodeIdx 0

/-- A node that is visited for the first time. -/
def visit (g : DestructGraph Box) (t : TarjanState) (nodeIdx : ℕ) : TarjanState :=
  { t with
    tarjanIdx := Function.update t.tarjanIdx nodeIdx (some t.dfsCounter)
    tarjanLowlinkIdx := Function.update t.tarjanLowlinkIdx nodeIdx t.dfsCounter
    dfsCounter := t.dfsCounter + 1
    tarjanStack := nodeIdx :: t.tarjanStack
    tarjanDfsStack := ⟨nodeIdx,g.edgeBase nodeIdx,g.edgeBase (nodeIdx + 1)⟩ :: t.tarjanDfsStack }

/-- Pops until the node itself is popped. -/
def popNodes (nodeIdx sccIdx : ℕ) (tarjanSccIdx : ℕ → Option ℕ) (tarjanSccNodeArray : List ℕ) :
    List ℕ → List ℕ × (ℕ → Option ℕ) × List ℕ
  | [] => ([],tarjanSccIdx,tarjanSccNodeArray)
  | j :: tarjanStack =>
      let tarjanSccIdx := Function.update tarjanSccIdx j (some sccIdx)
      let tarjanSccNodeArray := tarjanSccNodeArray ++ [j]
      if j = nodeIdx then (tarjanStack,tarjanSccIdx,tarjanSccNodeArray)
      else popNodes nodeIdx sccIdx tarjanSccIdx tarjanSccNodeArray tarjanStack

def popComponent (t : TarjanState) (nodeIdx : ℕ) : TarjanState :=
  let sccIdx := t.tarjanSccBaseArray.length
  let tarjanSccBaseArray := t.tarjanSccBaseArray ++ [t.tarjanSccNodeArray.length]
  let (tarjanStack,tarjanSccIdx,tarjanSccNodeArray) :=
    popNodes nodeIdx sccIdx t.tarjanSccIdx t.tarjanSccNodeArray t.tarjanStack
  { t with tarjanStack, tarjanSccIdx, tarjanSccNodeArray, tarjanSccBaseArray }

def lowerLink (t : TarjanState) (nodeIdx idx : ℕ) : TarjanState :=
  { t with
    tarjanLowlinkIdx :=
      Function.update t.tarjanLowlinkIdx nodeIdx (min (t.tarjanLowlinkIdx nodeIdx) idx) }

/-- One round of the loop over the stack of frames, until it is empty. -/
def tarjanRound (g : DestructGraph Box) (t : TarjanState) : Option TarjanState :=
  match t.tarjanDfsStack with
  | [] => none
  | frame :: frames =>
      let nodeIdx := frame.nodeIdx
      if frame.edgeIdx < frame.edgeEndIdx then
        let dstIdx := (g.sortedEdgeArray.getD frame.edgeIdx ⟨0,0⟩).dstIdx
        let t :=
          { t with tarjanDfsStack := { frame with edgeIdx := frame.edgeIdx + 1 } :: frames }
        match t.tarjanIdx dstIdx with
        | some idx =>
            if t.tarjanSccIdx dstIdx = none then some (lowerLink t nodeIdx idx) else some t
        | none => some (g.visit t dstIdx)
      else
        let t :=
          if t.tarjanIdx nodeIdx = some (t.tarjanLowlinkIdx nodeIdx) then popComponent t nodeIdx
          else t
        let t := { t with tarjanDfsStack := frames }
        match frames with
        | [] => some t
        | parent :: _ => some (lowerLink t parent.nodeIdx (t.tarjanLowlinkIdx nodeIdx))

def tarjanLoop (g : DestructGraph Box) : ℕ → TarjanState → Option TarjanState
  | fuel,t =>
      match g.tarjanRound t with
      | none => some t
      | some t' =>
          match fuel with
          | 0 => none
          | fuel + 1 => g.tarjanLoop fuel t'

/-- The candidates from the first on, each with a loop of its own unless it was visited. -/
def tarjanRoots (g : DestructGraph Box) (fuel : ℕ) : List ℕ → TarjanState → Option TarjanState
  | [],t => some t
  | i :: roots,t =>
      if t.tarjanIdx i ≠ none then g.tarjanRoots fuel roots t
      else
        match g.tarjanLoop fuel (g.visit t i) with
        | none => none
        | some t => g.tarjanRoots fuel roots t

def tarjanStart : TarjanState :=
  ⟨fun _ => none,fun _ => 2 ^ 64 - 1,fun _ => none,0,[],[],[],[]⟩

/-- The last base is a sentinel. -/
def tarjan (g : DestructGraph Box) (fuel : ℕ) : Option TarjanState :=
  match g.tarjanRoots fuel (List.range g.destructCount) tarjanStart with
  | none => none
  | some t =>
      some { t with
        tarjanSccBaseArray := t.tarjanSccBaseArray ++ [t.tarjanSccNodeArray.length] }

/-- The candidates of a component: a loop goes by index, the greatest first. -/
def emitComponent (g : DestructGraph Box) (t : TarjanState) (i : ℕ) : List Box :=
  let base := t.tarjanSccBaseArray.getD i 0
  let «end» := t.tarjanSccBaseArray.getD (i + 1) 0
  let component := (t.tarjanSccNodeArray.drop base).take («end» - base)
  let candidates := component.filter (· < g.destructCount)
  match candidates with
  | [] => []
  | [k] => [k].filterMap (g.nodeArray[·]?)
  | loop => (loop.mergeSort (· ≥ ·)).filterMap (g.nodeArray[·]?)

/-- The components from the last one down. -/
def emitComponents (g : DestructGraph Box) (t : TarjanState) : ℕ → List Box
  | 0 => []
  | i + 1 => g.emitComponent t i ++ g.emitComponents t i

def emit (g : DestructGraph Box) (t : TarjanState) (destructArray : List Box) : List Box :=
  destructArray ++ g.emitComponents t (t.tarjanSccBaseArray.length - 1)

end DestructGraph
end Jancy.Rt
