import Jancy.Lib.Links
import Jancy.Lib.Run
import Mathlib.Algebra.Group.Nat.Defs

/-! `std.HashTable` and `std.RbTree`: a native table of nodes, and the entries a program sees. -/
namespace Jancy.Std

abbrev NodeId := ℕ

abbrev MapEntryId := ℕ

/-- What a native table decides by itself: where a key is found, and where a new one goes, among
the keys in the order of iteration. -/
structure NativeTable (K : Type) where
  Shape : Type
  initial : Shape
  find : Shape → List K → K → Option ℕ
  insertAt : Shape → List K → K → ℕ
  inserted : Shape → K → Shape
  erased : Shape → ℕ → Shape
  cleared : Shape → Shape
  find_lt : ∀ {s keys key i}, find s keys key = some i → i < keys.length
  insertAt_le : ∀ s keys key, insertAt s keys key ≤ keys.length

/-- `value` points to the entry of the node. -/
structure Node (K : Type) where
  id : NodeId
  key : K
  value : Option MapEntryId

/-- `map` tells whether `m_map` is the map of this table. -/
structure MapEntry (K : Type) where
  key : K
  map : Bool
  mapEntry : NodeId

/-- The links are `m_nextPtr` and `m_prevPtr` of the entries, and `m_headPtr` and `m_tailPtr` of the
map. `freedTouched`: a node was erased that had been freed. -/
structure MapState {K : Type} (T : NativeTable K) where
  links : Links MapEntryId
  count : ℕ
  entry : MapEntryId → MapEntry K
  allocated : ℕ
  nodes : List (Node K)
  shape : T.Shape
  nextNode : NodeId
  freedTouched : Bool

/-- The two classes differ in the order of a removal. -/
inductive Container where
  | hashTable | rbTree
  deriving DecidableEq, Repr

inductive MapCall (K : Type) where
  | visit (key : K)
  | find (key : K)
  | remove (entry : Option MapEntryId)
  | removeKey (key : K)
  | clear

inductive MapResult where
  | void
  | entry (e : Option MapEntryId)
  | bool (b : Bool)
  | thrown
  deriving DecidableEq, Repr

namespace MapState

variable {K : Type} {T : NativeTable K}

def initial [Inhabited K] (T : NativeTable K) : MapState T where
  links := ⟨fun _ => none,fun _ => none⟩
  count := 0
  entry _ := ⟨default,false,0⟩
  allocated := 0
  nodes := []
  shape := T.initial
  nextNode := 0
  freedTouched := false

def keys (s : MapState T) : List K := s.nodes.map Node.key

/-- `visit` of the native table: the position of the node, which is new if the key is. -/
def visitNode (s : MapState T) (key : K) : MapState T × ℕ :=
  match T.find s.shape s.keys key with
  | some i => (s,i)
  | none =>
      let i := T.insertAt s.shape s.keys key
      ({ s with
          nodes := s.nodes.take i ++ ⟨s.nextNode,key,none⟩ :: s.nodes.drop i
          shape := T.inserted s.shape key
          nextNode := s.nextNode + 1 },i)

/-- `findValue` with a null default. -/
def findValue (s : MapState T) (key : K) : Option MapEntryId :=
  (T.find s.shape s.keys key).bind fun i => s.nodes[i]?.bind Node.value

def eraseNode (s : MapState T) (id : NodeId) : MapState T :=
  if id ∈ s.nodes.map Node.id then
    { s with
      nodes := s.nodes.eraseP (·.id == id)
      shape := T.erased s.shape (s.nodes.findIdx (·.id == id)) }
  else { s with freedTouched := true }

def clearNodes (s : MapState T) : MapState T :=
  { s with nodes := [],shape := T.cleared s.shape }

def clearMap (s : MapState T) : MapState T :=
  { s with
    links := ⟨Function.update s.links.next none none,Function.update s.links.prev none none⟩
    count := 0 }

def add (s : MapState T) (i : ℕ) (node : Node K) : MapState T :=
  let next := s.nodes[i + 1]?
  let prev := if i = 0 then none else s.nodes[i - 1]?
  { s with
    entry := Function.update s.entry s.allocated ⟨node.key,true,node.id⟩
    allocated := s.allocated + 1
    links := s.links.link (prev.bind Node.value) (next.bind Node.value) s.allocated
    count := s.count + 1 }

/-- `m_map` of the entry stays as it is. -/
def removeEntry (s : MapState T) (e : MapEntryId) : MapState T :=
  { s with
    links := s.links.unlink e
    count := if s.count = 0 then 2 ^ 64 - 1 else s.count - 1 }

def visitImpl (s : MapState T) (key : K) : MapState T × MapResult :=
  let (s,i) := s.visitNode key
  match s.nodes[i]? with
  | none => (s,.entry none)
  | some node =>
      match node.value with
      | some e => (s,.entry (some e))
      | none =>
          ({ s.add i node with nodes := s.nodes.set i { node with value := some s.allocated } },
            .entry (some s.allocated))

def removeImpl (c : Container) (s : MapState T) (entry : Option MapEntryId) :
    MapState T × MapResult :=
  match entry with
  | none => (s,.thrown)
  | some e =>
      if (s.entry e).map = false then (s,.thrown)
      else
        match c with
        | .hashTable => ((s.eraseNode (s.entry e).mapEntry).removeEntry e,.void)
        | .rbTree => ((s.removeEntry e).eraseNode (s.entry e).mapEntry,.void)

def clear (s : MapState T) : MapState T := s.clearMap.clearNodes

def call (c : Container) (s : MapState T) : MapCall K → MapState T × MapResult
  | .visit key => s.visitImpl key
  | .find key => (s,.entry (s.findValue key))
  | .remove entry => s.removeImpl c entry
  | .removeKey key =>
      match s.findValue key with
      | none => (s,.bool false)
      | some e => ((s.removeImpl c (some e)).1,.bool true)
  | .clear => (s.clear,.void)

def step (c : Container) (s : MapState T) (call : MapCall K) : Option (MapState T) :=
  some (s.call c call).1

/-- What a program finds that follows the links from the head. -/
def entries (s : MapState T) : List MapEntryId := s.links.walk s.allocated (s.links.next none)

/-- The node and the entry point to each other. -/
structure Paired (s : MapState T) (node : Node K) (e : MapEntryId) : Prop where
  value : node.value = some e
  mapEntry : (s.entry e).mapEntry = node.id
  key : (s.entry e).key = node.key
  map : (s.entry e).map = true

structure Corresponds (s : MapState T) (es : List MapEntryId) : Prop where
  links : s.links.Holds es
  count : s.count = es.length
  paired : List.Forall₂ s.Paired s.nodes es
  distinct : (s.nodes.map Node.id).Nodup
  intact : s.freedTouched = false

def InCorrespondence (s : MapState T) : Prop := s.Corresponds s.entries

def Stale (s : MapState T) (e : MapEntryId) : Prop := e < s.allocated ∧ e ∉ s.entries

/-- Removal of an entry that is not in the map any more is an error and changes nothing. -/
def Rejects (c : Container) (s : MapState T) : MapCall K → Prop
  | .remove (some e) => s.Stale e → s.call c (.remove (some e)) = (s,.thrown)
  | _ => True

structure MapKept [Inhabited K] (T : NativeTable K) (c : Container) (calls : List (MapCall K)) :
    Prop where
  corresponds : Run.Always (step c) InCorrespondence (initial T) calls
  rejects : Run.Along (step c) (Rejects c) (initial T) calls

def removesLive (s : MapState T) : MapCall K → Bool
  | .remove (some e) => decide (e < s.allocated → e ∈ s.entries)
  | _ => true

end MapState

end Jancy.Std
