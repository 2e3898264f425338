import Jancy.Lib.LinkedLists
import Jancy.Lib.Run

/-! `std.List`: entries are held by the program, and any of them can be an argument of any call. -/
namespace Jancy.Std

abbrev EntryId := ℕ

abbrev ListId := ℕ

/-- Links and counters of all lists, `m_list` and `m_data` of all entries. -/
structure ListHeap (V : Type) where
  lists : LinkedLists ListId EntryId
  owner : EntryId → Option ListId
  data : EntryId → V
  allocated : ℕ

inductive ListCall (V : Type) where
  | clear (l : ListId)
  | takeOver (l : ListId) (list : Option ListId)
  | insertHead (l : ListId) (data : V)
  | insertTail (l : ListId) (data : V)
  | insertBefore (l : ListId) (data : V) (before : Option EntryId)
  | insertAfter (l : ListId) (data : V) (after : Option EntryId)
  | moveToHead (l : ListId) (entry : Option EntryId)
  | moveToTail (l : ListId) (entry : Option EntryId)
  | moveBefore (l : ListId) (entry before : Option EntryId)
  | moveAfter (l : ListId) (entry after : Option EntryId)
  | removeHead (l : ListId)
  | removeTail (l : ListId)
  | remove (l : ListId) (entry : Option EntryId)

inductive ListResult (V : Type) where
  | void
  | entry (e : Option EntryId)
  | data (v : V)

namespace ListHeap

variable {V : Type}

section Links

variable (h : ListHeap V) (l : ListId) (e : EntryId)

def insertHeadImpl : ListHeap V :=
  { h with lists := h.lists.insertBetween l none (h.lists.head l) e }

def insertTailImpl : ListHeap V :=
  { h with lists := h.lists.insertBetween l (h.lists.tail l) none e }

def insertBeforeImpl (before : Option EntryId) : ListHeap V :=
  match before with
  | none => h.insertTailImpl l e
  | some b => { h with lists := h.lists.insertBetween l (h.lists.prev b) (some b) e }

def insertAfterImpl (after : Option EntryId) : ListHeap V :=
  match after with
  | none => h.insertHeadImpl l e
  | some a => { h with lists := h.lists.insertBetween l (some a) (h.lists.next a) e }

def removeImpl : ListHeap V := { h with lists := h.lists.remove l e }

end Links

/-- Follow the links and set `m_list`; the fuel runs out where the links lead in a circle. -/
def setOwner (owner : Option ListId) : ℕ → ListHeap V → Option EntryId → Option (ListHeap V)
  | _, h, none => some h
  | 0, _, some _ => none
  | n + 1, h, some e =>
      setOwner owner n { h with owner := Function.update h.owner e owner } (h.lists.next e)

section Calls

variable [Inhabited V]

/-- `default` is the null variant. -/
def initial : ListHeap V where
  lists := .empty
  owner _ := none
  data _ := default
  allocated := 0

def clear (h : ListHeap V) (l : ListId) : Option (ListHeap V) := do
  let h ← h.setOwner none h.allocated (h.lists.head l)
  return { h with lists := h.lists.clear l }

def takeOver (h : ListHeap V) (l : ListId) (list : Option ListId) : Option (ListHeap V) :=
  match list with
  | none => h.clear l
  | some src => do
    let h ← h.setOwner (some l) h.allocated (h.lists.head src)
    return { h with lists := h.lists.takeOver l src }

/-- `allocateListEntry`, with the stores that follow it in every insertion. -/
def allocateListEntry (h : ListHeap V) (l : ListId) (data : V) : ListHeap V :=
  { h with
    owner := Function.update h.owner h.allocated (some l)
    data := Function.update h.data h.allocated data
    allocated := h.allocated + 1 }

def insertWith (h : ListHeap V) (l : ListId) (data : V)
    (impl : ListHeap V → EntryId → ListHeap V) : ListHeap V × ListResult V :=
  (impl (h.allocateListEntry l data) h.allocated,.entry (some h.allocated))

def moveWith (h : ListHeap V) (l : ListId) (entry : Option EntryId)
    (impl : ListHeap V → EntryId → ListHeap V) : ListHeap V :=
  match entry with
  | none => h
  | some e => if h.owner e ≠ some l then h else impl (h.removeImpl l e) e

def remove (h : ListHeap V) (l : ListId) (entry : Option EntryId) : ListHeap V × ListResult V :=
  match entry with
  | none => (h,.data default)
  | some e =>
      if h.owner e ≠ some l then (h,.data default)
      else
        ({ h with
            lists := (h.lists.remove l e).forget e
            owner := Function.update h.owner e none },.data (h.data e))

/-- `none`: the call does not return. -/
def call (h : ListHeap V) : ListCall V → Option (ListHeap V × ListResult V)
  | .clear l => (h.clear l).map (·,.void)
  | .takeOver l list => (h.takeOver l list).map (·,.void)
  | .insertHead l data => some (h.insertWith l data (fun h e => h.insertHeadImpl l e))
  | .insertTail l data => some (h.insertWith l data (fun h e => h.insertTailImpl l e))
  | .insertBefore l data before =>
      some (h.insertWith l data (fun h e => h.insertBeforeImpl l e before))
  | .insertAfter l data after =>
      some (h.insertWith l data (fun h e => h.insertAfterImpl l e after))
  | .moveToHead l entry => some (h.moveWith l entry (fun h e => h.insertHeadImpl l e),.void)
  | .moveToTail l entry => some (h.moveWith l entry (fun h e => h.insertTailImpl l e),.void)
  | .moveBefore l entry before =>
      some (h.moveWith l entry (fun h e => h.insertBeforeImpl l e before),.void)
  | .moveAfter l entry after =>
      some (h.moveWith l entry (fun h e => h.insertAfterImpl l e after),.void)
  | .removeHead l => some (h.remove l (h.lists.head l))
  | .removeTail l => some (h.remove l (h.lists.tail l))
  | .remove l entry => some (h.remove l entry)

def step (h : ListHeap V) (c : ListCall V) : Option (ListHeap V) := (h.call c).map Prod.fst

end Calls

end ListHeap

/-! What the calls of `std.List` promise, and what their arguments have to be for it. -/

section Documented

variable {V : Type} [Inhabited V]

/-- `xs` with `e` in front of the entry `b`. -/
def putBefore (b e : EntryId) : List EntryId → List EntryId
  | [] => []
  | x :: xs => if x = b then e :: x :: xs else x :: putBefore b e xs

/-- `xs` with `e` behind the entry `a`. -/
def putAfter (a e : EntryId) : List EntryId → List EntryId
  | [] => []
  | x :: xs => if x = a then x :: e :: xs else x :: putAfter a e xs

def placeBefore (before : Option EntryId) (e : EntryId) (xs : List EntryId) :
    Option (List EntryId) :=
  match before with
  | none => some (xs ++ [e])
  | some b => if b ∈ xs then some (putBefore b e xs) else none

def placeAfter (after : Option EntryId) (e : EntryId) (xs : List EntryId) :
    Option (List EntryId) :=
  match after with
  | none => some (e :: xs)
  | some a => if a ∈ xs then some (putAfter a e xs) else none

/-- A move takes an entry of the list out, and finds its place among the others. -/
def placeMoved (place : EntryId → List EntryId → Option (List EntryId)) (entry : Option EntryId)
    (xs : List EntryId) : Option (List EntryId) :=
  match entry with
  | none => none
  | some e => if e ∈ xs then place e (xs.erase e) else none

def takeOut (entry : Option EntryId) (xs : List EntryId) : Option (List EntryId) :=
  match entry with
  | none => none
  | some e => if e ∈ xs then some (xs.erase e) else none

/-- The sequences after a call; `none` where the call has to fail. -/
def documented (seqs : ListId → List EntryId) (fresh : EntryId) :
    ListCall V → Option (ListId → List EntryId)
  | .clear l => some (Function.update seqs l [])
  | .takeOver l none => some (Function.update seqs l [])
  | .takeOver l (some src) =>
      if src = l then none else some (Function.update (Function.update seqs l (seqs src)) src [])
  | .insertHead l _ => (placeAfter none fresh (seqs l)).map (Function.update seqs l)
  | .insertTail l _ => (placeBefore none fresh (seqs l)).map (Function.update seqs l)
  | .insertBefore l _ before => (placeBefore before fresh (seqs l)).map (Function.update seqs l)
  | .insertAfter l _ after => (placeAfter after fresh (seqs l)).map (Function.update seqs l)
  | .moveToHead l entry =>
      (placeMoved (placeAfter none) entry (seqs l)).map (Function.update seqs l)
  | .moveToTail l entry =>
      (placeMoved (placeBefore none) entry (seqs l)).map (Function.update seqs l)
  | .moveBefore l entry before =>
      (placeMoved (placeBefore before) entry (seqs l)).map (Function.update seqs l)
  | .moveAfter l entry after =>
      (placeMoved (placeAfter after) entry (seqs l)).map (Function.update seqs l)
  | .removeHead l => (takeOut (seqs l).head? (seqs l)).map (Function.update seqs l)
  | .removeTail l => (takeOut (seqs l).getLast? (seqs l)).map (Function.update seqs l)
  | .remove l entry => (takeOut entry (seqs l)).map (Function.update seqs l)

/-- The data of a removed entry, or null. -/
def dataOf (h : ListHeap V) (entry : Option EntryId) (xs : List EntryId) : V :=
  match entry with
  | none => default
  | some e => if e ∈ xs then h.data e else default

/-- A new entry or null, the data of a removed one or null. -/
def documentedResult (h : ListHeap V) (seqs : ListId → List EntryId) (c : ListCall V) :
    ListResult V :=
  match c with
  | .insertHead .. | .insertTail .. | .insertBefore .. | .insertAfter .. =>
      .entry ((documented seqs h.allocated c).map fun _ => h.allocated)
  | .removeHead l => .data (dataOf h (seqs l).head? (seqs l))
  | .removeTail l => .data (dataOf h (seqs l).getLast? (seqs l))
  | .remove l entry => .data (dataOf h entry (seqs l))
  | _ => .void

/-- What a new entry holds. -/
def ListCall.inserted : ListCall V → Option V
  | .insertHead _ data | .insertTail _ data => some data
  | .insertBefore _ data _ | .insertAfter _ data _ => some data
  | _ => none

def dataAfter (h : ListHeap V) (c : ListCall V) : EntryId → V :=
  match c.inserted with
  | none => h.data
  | some v => Function.update h.data h.allocated v

end Documented

section Promise

variable {V : Type}

namespace ListHeap

/-- What a program finds that follows the links from the head. -/
def entriesOf (h : ListHeap V) (l : ListId) : List EntryId :=
  (h.lists.links l).walk h.allocated (h.lists.head l)

/-- Links, counters and owners are those of the sequences. -/
structure Represents (h : ListHeap V) (seqs : ListId → List EntryId) : Prop where
  lists : h.lists.Represents seqs
  owner : ∀ l, ∀ e ∈ seqs l, h.owner e = some l
  allocated : ∀ l, ∀ e ∈ seqs l, e < h.allocated

def WellFormed (h : ListHeap V) : Prop := h.Represents h.entriesOf

variable [Inhabited V]

/-- The call has its documented effect, or it fails and the sequences are as before. -/
structure Answers (h : ListHeap V) (c : ListCall V) (h' : ListHeap V) (result : ListResult V) :
    Prop where
  sequences : h'.entriesOf = (documented h.entriesOf h.allocated c).getD h.entriesOf
  result : result = documentedResult h h.entriesOf c
  data : h'.data = dataAfter h c

def Answered (h : ListHeap V) (c : ListCall V) : Prop :=
  ∃ h' result, h.call c = some (h',result) ∧ h.Answers c h' result

def argumentsOk (h : ListHeap V) : ListCall V → Bool
  | .takeOver l list => decide (list = some l → h.entriesOf l = [])
  | .insertBefore l _ place | .insertAfter l _ place => decide (∀ b ∈ place, b ∈ h.entriesOf l)
  | .moveToHead l entry | .moveToTail l entry | .remove l entry =>
      decide (∀ e ∈ entry, h.owner e = some l → e ∈ h.entriesOf l)
  | .moveBefore l entry place | .moveAfter l entry place =>
      decide (∀ e ∈ entry, h.owner e = some l →
        e ∈ h.entriesOf l ∧ ∀ b ∈ place, b ≠ e ∧ b ∈ h.entriesOf l)
  | _ => true

structure Kept (calls : List (ListCall V)) : Prop where
  returns : ∃ h, Run.exec step initial calls = some h
  wellFormed : Run.Always step WellFormed initial calls
  answered : Run.Along step Answered initial calls

end ListHeap

end Promise

end Jancy.Std
